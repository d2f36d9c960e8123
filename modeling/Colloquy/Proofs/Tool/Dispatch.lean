import Colloquy.Agent
import Colloquy.Proofs.Keyed
import Colloquy.Tool.Backend
import Mathlib.Data.List.Forall2
import Mathlib.Data.String.Basic

/-!
# Which function a tool runs

Functions are kept, tools are found and names are told apart without regard to the case of ASCII letters.
That is one and the same likeness each time: letter by letter, and for all characters but these letters
the characters themselves. So a tool runs the function that was registered last under a spelling of its
name, in whatever spelling it is called.
-/

namespace Colloquy

namespace Text

/-- The first of two characters is an ASCII capital and the second its small letter. -/
def IsCapitalOf (c d : Char) : Prop :=
  'A'.toNat ≤ c.toNat ∧ c.toNat ≤ 'Z'.toNat ∧ d.toNat = c.toNat + ('a'.toNat - 'A'.toNat)

/-- Two characters are the same, or one ASCII letter in both cases. -/
def SameLetter (c d : Char) : Prop :=
  c = d ∨ IsCapitalOf c d ∨ IsCapitalOf d c

/-- Two texts spell one name: character by character they are the same but for the case of ASCII
letters. -/
def Respells (s t : String) : Prop :=
  List.Forall₂ SameLetter s.toList t.toList

private theorem toNat_toLower (c : Char) :
    c.toLower.toNat = if 65 ≤ c.toNat ∧ c.toNat ≤ 90 then c.toNat + 32 else c.toNat := by
  by_cases hcapital : 65 ≤ c.toNat ∧ c.toNat ≤ 90
  · have hshifted : c.toLower.val = c.val + 32 := congrArg Char.val (dif_pos hcapital)
    have hsmall : c.val.toNat ≤ 90 := hcapital.2
    rw [if_pos hcapital, Char.toNat, Char.toNat, hshifted, UInt32.toNat_add]
    exact Nat.mod_eq_of_lt (by simp; omega)
  · have hkept : c.toLower = c := dif_neg hcapital
    rw [if_neg hcapital, hkept]

/-- Characters with the same small form are one letter, and the other way round. -/
theorem toLower_eq_toLower_iff {c d : Char} : c.toLower = d.toLower ↔ SameLetter c d := by
  have hcap : 'A'.toNat = 65 ∧ 'Z'.toNat = 90 ∧ 'a'.toNat = 97 := by decide
  rw [← Char.toNat_inj, toNat_toLower, toNat_toLower, SameLetter, IsCapitalOf, IsCapitalOf,
    ← Char.toNat_inj, hcap.1, hcap.2.1, hcap.2.2]
  split <;> split <;> omega

/-- Texts with the same small ASCII letters are spellings of one name. -/
theorem alike_iff_respells {s t : String} : alike s t = true ↔ Respells s t := by
  rw [alike_iff, lowerAscii, lowerAscii, String.ofList_inj, ← List.forall₂_eq_eq_eq,
    List.forall₂_map_left_iff, List.forall₂_map_right_iff, Respells]
  simp only [toLower_eq_toLower_iff]

instance (s t : String) : Decidable (Respells s t) :=
  decidable_of_iff _ alike_iff_respells

theorem Respells.symm {s t : String} (h : Respells s t) : Respells t s := by
  rw [← alike_iff_respells, alike_comm]
  exact alike_iff_respells.mpr h

end Text

namespace NativeTable

/-- What the functions of a table differ in. -/
private def key (function : NativeFunction) : String :=
  Text.lowerAscii function.name

/-- The last function that was registered under a spelling of a name. -/
def lastOf (functions : List NativeFunction) (name : String) : Option NativeFunction :=
  functions.findRev? fun function => decide (Text.Respells function.name name)

variable {functions : List NativeFunction} {function : NativeFunction} {name : String}

private theorem lastOf_eq (functions : List NativeFunction) (name : String) :
    lastOf functions name = functions.findRev? (key · == Text.lowerAscii name) := by
  have hsame : (fun function : NativeFunction => decide (Text.Respells function.name name)) =
      (key · == Text.lowerAscii name) := by
    funext function
    rw [Bool.eq_iff_iff, decide_eq_true_iff]
    exact Text.alike_iff_respells.symm
  rw [lastOf, hsame]

/-- All spellings of a name lead to the same function. -/
theorem lastOf_congr (functions : List NativeFunction) {s t : String} (h : Text.Respells s t) :
    lastOf functions s = lastOf functions t := by
  rw [lastOf_eq, lastOf_eq, Text.alike_iff.mp (Text.alike_iff_respells.mpr h)]

/-- The function that a name leads to was registered under a spelling of it. -/
theorem mem_of_lastOf (h : lastOf functions name = some function) :
    function ∈ functions ∧ Text.Respells function.name name := by
  rw [lastOf_eq] at h
  obtain ⟨hmem, hkey⟩ := mem_of_findRev?_key h
  exact ⟨hmem, Text.alike_iff_respells.mp (Text.alike_iff.mpr hkey)⟩

/-- The name of a function that was registered leads to a function. -/
theorem exists_lastOf (h : function ∈ functions) :
    ∃ last, lastOf functions function.name = some last := by
  simp only [lastOf_eq]
  exact exists_findRev?_key_eq_some h

/-- The function of a key. -/
private def atKey (table : NativeTable) (k : String) : Option NativeFunction :=
  table.functions.find? (key · == k)

/-- A function that is registered takes the place of the one with its key, and nothing else changes. -/
private theorem atKey_register (table : NativeTable) (function : NativeFunction) (k : String) :
    (table.register function).atKey k = if key function = k then some function else table.atKey k :=
  find?_filter_key_ne_concat table.functions function k

/-- By a name the function is found that was registered last under a spelling of it. -/
theorem find?_ofList (functions : List NativeFunction) (name : String) :
    (ofList functions).find? name = lastOf functions name := by
  rw [lastOf_eq]
  exact find_foldl_eq_findRev? (fun _ => rfl) atKey_register functions (Text.lowerAscii name)

private theorem nodup_ofList (functions : List NativeFunction) :
    ((ofList functions).functions.map key).Nodup := by
  induction functions using List.reverseRecOn with
  | nil => exact List.nodup_nil
  | append_singleton functions function ih =>
    rw [ofList, List.foldl_append]
    exact nodup_filter_key_ne_concat ih function

/-- A function is in the table if its own name leads to it. -/
theorem mem_ofList_iff :
    function ∈ (ofList functions).functions ↔ lastOf functions function.name = some function := by
  rw [← find?_ofList]
  exact ((find?_key_eq_some_iff (nodup_ofList functions)).trans (and_iff_left rfl)).symm

section Names

theorem mem_names_iff :
    name ∈ (ofList functions).names ↔
      ∃ function, lastOf functions name = some function ∧ function.name = name := by
  rw [names, (List.mergeSort_perm _ _).mem_iff, List.mem_map]
  constructor
  · rintro ⟨function, hmem, rfl⟩
    exact ⟨function, mem_ofList_iff.mp hmem, rfl⟩
  · rintro ⟨function, hlast, rfl⟩
    exact ⟨function, mem_ofList_iff.mpr hlast, rfl⟩

/-- The names are sorted, and none is there twice. -/
theorem pairwise_names (functions : List NativeFunction) :
    (ofList functions).names.Pairwise (· < ·) := by
  have hsorted : (ofList functions).names.Pairwise fun s t => decide (s ≤ t) = true := by
    refine List.pairwise_mergeSort (fun s t u hst htu => ?_) (fun s t => ?_) _
    · exact decide_eq_true (le_trans (of_decide_eq_true hst) (of_decide_eq_true htu))
    · simpa using le_total s t
  have hnodup : (ofList functions).names.Nodup := by
    have hkeys := nodup_ofList functions
    rw [show key = Text.lowerAscii ∘ (·.name) from rfl, ← List.map_map] at hkeys
    exact (List.mergeSort_perm _ _).nodup_iff.mpr hkeys.of_map
  refine hsorted.imp₂ (fun s t hle hne => ?_) hnodup
  exact lt_of_le_of_ne (of_decide_eq_true hle) hne

/-- Of the spellings of a name that functions were registered under, one is among the names. -/
theorem existsUnique_name (h : function ∈ functions) :
    ∃! name, name ∈ (ofList functions).names ∧ Text.Respells function.name name := by
  obtain ⟨last, hlast⟩ := exists_lastOf h
  have hspelling : Text.Respells last.name function.name := (mem_of_lastOf hlast).2
  refine ⟨last.name, ⟨mem_names_iff.mpr ⟨last, ?_, rfl⟩, ?_⟩, ?_⟩
  · rw [lastOf_congr functions hspelling, hlast]
  · exact hspelling.symm
  · rintro name ⟨hname, hsame⟩
    obtain ⟨other, hother, rfl⟩ := mem_names_iff.mp hname
    rw [← lastOf_congr functions hsame, hlast] at hother
    rw [Option.some.inj hother]

end Names

end NativeTable

/-- The tool that is found by a name is found by all its spellings. -/
theorem Agent.findTool?_congr (agent : Agent) {s t : String} (h : Text.Respells s t) :
    agent.findTool? s = agent.findTool? t := by
  have hsame : (fun tool : Tool => tool.goesBy s) = (·.goesBy t) := by
    funext tool
    rw [Tool.goesBy, Tool.goesBy, Text.alike, Text.alike,
      Text.alike_iff.mp (Text.alike_iff_respells.mpr h)]
  rw [findTool?, findTool?, hsame]

namespace NativeTable

/-- Whatever functions are registered, a tool runs the last one that was registered under a spelling of
its name, and a tool whose name none of them spells is not found under the name as the tool has it. The
names are sorted, and of each name there is the spelling that was registered last and no other. A tool
that an agent has for a call it has for the call in every spelling, and the function that it runs is the
one that the call leads to. -/
theorem ofList_dispatches (functions : List NativeFunction) :
    let table := ofList functions
    (∀ tool parameters, table.backend.run tool parameters = some
      (match lastOf functions tool.name with
      | some function => function.call parameters
      | none => .error (.notFound tool.name))) ∧
      (table.names.Pairwise (· < ·) ∧
        (∀ name, name ∈ table.names ↔
          ∃ function, lastOf functions name = some function ∧ function.name = name) ∧
        ∀ function ∈ functions,
          ∃! name, name ∈ table.names ∧ Text.Respells function.name name) ∧
      ∀ (agent : Agent) (call spelling : String) (tool : Tool), Text.Respells call spelling →
        agent.findTool? call = some tool →
          agent.findTool? spelling = some tool ∧
            table.find? tool.name = lastOf functions spelling := by
  intro table
  refine ⟨fun tool parameters => ?_, ⟨pairwise_names functions, fun _ => mem_names_iff,
    fun _ => existsUnique_name⟩, ?_⟩
  · change some (table.run tool parameters) = _
    rw [run, find?_ofList]
    cases lastOf functions tool.name <;> rfl
  · intro agent call spelling tool hspelling hfound
    refine ⟨(agent.findTool?_congr hspelling).symm.trans hfound, ?_⟩
    have hname : Text.Respells tool.name call :=
      Text.alike_iff_respells.mp (Agent.mem_of_findTool?_eq_some hfound).2.2
    rw [find?_ofList, lastOf_congr functions hname, lastOf_congr functions hspelling]

section Echo

/-- A function that says the same each time. -/
private def parrot (name said : String) : NativeFunction :=
  ⟨name, fun _ => .ok (.text said)⟩

/-- Two functions of one name in different letter case, and another one between them. -/
private def parrots : List NativeFunction :=
  [parrot "Echo" "first", parrot "add" "second", parrot "ECHO" "third"]

/-- A tool with a name. -/
private def perch (name : String) : Tool :=
  ⟨"t", name, "", .native, true, "\x7b\x7d"⟩

/-- The later of two functions of one name runs and lends its spelling to the names. A tool that is
called in another letter case leads to it, and one that has no function is not found. -/
theorem ofList_dispatches_parrots :
    let table := ofList parrots
    let agent : Agent := ⟨"bot", "", [], [perch "echo"], ⟨"m", 0.5, none⟩⟩
    table.backend.run (perch "echo") [] = some (.ok (.text "third")) ∧
      table.backend.run (perch "Sing") [] = some (.error (.notFound "Sing")) ∧
      "ECHO" ∈ table.names ∧ "Echo" ∉ table.names ∧
      Text.Respells "Echo" "eCHO" ∧ agent.findTool? "Echo" = some (perch "echo") ∧
      agent.findTool? "eCHO" = some (perch "echo") ∧
      table.find? "echo" = some (parrot "ECHO" "third") := by
  intro table agent
  have hecho : lastOf parrots "echo" = some (parrot "ECHO" "third") := rfl
  have hrespells : Text.Respells "echo" "ECHO" ∧ Text.Respells "echo" "Echo" ∧
      Text.Respells "echo" "eCHO" ∧ Text.Respells "Echo" "eCHO" := by
    decide +kernel
  have hsing : lastOf parrots "Sing" = none := rfl
  have hfound : agent.findTool? "Echo" = some (perch "echo") := by decide +kernel
  obtain ⟨hruns, ⟨-, hnames, -⟩, hcalls⟩ := ofList_dispatches parrots
  obtain ⟨hcapital, hmixed, hother, hspelling⟩ := hrespells
  obtain ⟨hsame, hreached⟩ := hcalls agent "Echo" "eCHO" (perch "echo") hspelling hfound
  refine ⟨?_, ?_, (hnames "ECHO").mpr ⟨parrot "ECHO" "third", ?_, rfl⟩, ?_,
    hspelling, hfound, hsame, ?_⟩
  · refine (hruns (perch "echo") []).trans ?_
    rw [show lastOf parrots (perch "echo").name = _ from hecho]
    rfl
  · refine (hruns (perch "Sing") []).trans ?_
    rw [show lastOf parrots (perch "Sing").name = _ from hsing]
    rfl
  · exact (lastOf_congr parrots hcapital).symm.trans hecho
  · intro hmem
    obtain ⟨function, hlast, hname⟩ := (hnames "Echo").mp hmem
    rw [← lastOf_congr parrots hmixed, hecho] at hlast
    cases hlast
    exact absurd hname (by decide)
  · exact hreached.trans ((lastOf_congr parrots hother).symm.trans hecho)

end Echo

end NativeTable

end Colloquy
