import Colloquy.Configuration.Loading
import Colloquy.Proofs.Attempts
import Colloquy.Proofs.Configuration.Rules
import Mathlib.Data.Nat.Digits.Defs

/-!
# Loaded configurations

What comes out of a file and the environment. The file has to be a valid configuration by itself, the
variables of the environment take the place of three of its fields, and what comes of this has to be
valid again. So a configuration that is loaded keeps the rules, and it is the written one in every
field that no variable is for.
-/

namespace Colloquy

/-- The names of a kind of storage. -/
def StorageKind.names : StorageKind → List String
  | .sqlite => ["sqlite"]
  | .memory => ["memory", "in_memory"]

/-- A kind of storage is read from its names in any letter case. -/
theorem StorageKind.ofText?_eq_ok_iff {s : String} {kind : StorageKind} :
    ofText? s = .ok kind ↔ Text.lowerAscii s ∈ kind.names := by
  rw [ofText?]
  split
  · next h => cases kind <;> simp [names, h]
  · next h => cases kind <;> simp [names, h]
  · next h => cases kind <;> simp [names, h]
  · next hsqlite hmemory hinMemory =>
    refine ⟨nofun, fun h => ?_⟩
    cases kind with
    | sqlite => exact absurd (List.mem_singleton.mp h) hsqlite
    | memory =>
      rcases List.mem_pair.mp h with h | h
      · exact absurd h hmemory
      · exact absurd h hinMemory

/-- A text denotes a number: decimal digits behind an optional plus sign. -/
def Text.Denotes (s : String) (n : Nat) : Prop :=
  ∃ digits : List Char, (s.toList = digits ∨ s.toList = '+' :: digits) ∧ digits ≠ [] ∧
    (∀ c ∈ digits, c.isDigit = true) ∧
    Nat.ofDigits 10 (digits.reverse.map fun c => c.toNat - '0'.toNat) = n

theorem Text.Scan.digitsValue_eq_ofDigits (digits : List Char) :
    digitsValue digits = Nat.ofDigits 10 (digits.reverse.map fun c => c.toNat - '0'.toNat) := by
  induction digits using List.reverseRecOn with
  | nil => rfl
  | append_singleton digits c ih =>
    rw [digitsValue, List.foldl_append, ← digitsValue, ih, List.reverse_concat, List.map_cons,
      Nat.ofDigits_cons]
    exact Nat.add_comm ..

/-- What stands in the place of a configuration file: a configuration, or nothing where the standard
one is meant. -/
def ConfigSource.Writes (config : Configuration) : ConfigSource → Prop
  | .missing => config = .standard
  | .unreadable => False
  | .text content => Toml.readAs? Configuration.decode content = some config

namespace Configuration

/-- The environment takes precedence over a written configuration, in the fields that it has
variables for. -/
structure Overridden (env : Environment) (written config : Configuration) : Prop where
  path : config.storage.path = (env "PARLEY_DB_PATH").or written.storage.path
  kind : match env "PARLEY_STORAGE" with
    | none => config.storage.kind = written.storage.kind
    | some name => Text.lowerAscii name ∈ config.storage.kind.names
  maxDepth : match env "PARLEY_MAX_DEPTH" with
    | none => config.settings.maxDepth = written.settings.maxDepth
    | some value => Text.Denotes (Text.trim value) config.settings.maxDepth.toNat
  others : config = { written with
    storage := config.storage
    settings := { written.settings with maxDepth := config.settings.maxDepth } }

section Words

variable {s : String} {digits : List Char}

/-- The characters of a number behind an optional plus sign. -/
def unsigned : List Char → List Char
  | '+' :: digits => digits
  | digits => digits

private theorem eq_unsigned_iff {chars : List Char} (hdigits : ∀ c ∈ digits, c.isDigit = true) :
    digits = unsigned chars ↔ chars = digits ∨ chars = '+' :: digits := by
  unfold unsigned
  split
  · next rest =>
    constructor
    · rintro rfl
      exact .inr rfl
    · rintro (rfl | h)
      · exact absurd (hdigits '+' List.mem_cons_self) (by decide)
      · exact (List.cons.inj h).2.symm
  · next hbare =>
    constructor
    · rintro rfl
      exact .inl rfl
    · rintro (rfl | h)
      · rfl
      · exact absurd h (hbare digits)

private theorem denotes_iff {n : Nat} : Text.Denotes s n ↔
    (unsigned s.toList ≠ [] ∧ ∀ c ∈ unsigned s.toList, c.isDigit = true) ∧
      Text.Scan.digitsValue (unsigned s.toList) = n := by
  rw [Text.Scan.digitsValue_eq_ofDigits]
  constructor
  · rintro ⟨digits, hread, hnonempty, hdigits, hvalue⟩
    obtain rfl := (eq_unsigned_iff hdigits).mpr hread
    exact ⟨⟨hnonempty, hdigits⟩, hvalue⟩
  · rintro ⟨⟨hnonempty, hdigits⟩, hvalue⟩
    exact ⟨_, (eq_unsigned_iff hdigits).mp rfl, hnonempty, hdigits, hvalue⟩

/-- A word is read from the texts that denote it. -/
theorem wordOf?_eq_some_iff {bits n : Nat} :
    wordOf? bits s = some n ↔ Text.Denotes s n ∧ n < Word.count bits := by
  have hword : wordOf? bits s =
      if (unsigned s.toList).isEmpty || !(unsigned s.toList).all Char.isDigit then none
      else if Text.Scan.digitsValue (unsigned s.toList) < Word.count bits then
        some (Text.Scan.digitsValue (unsigned s.toList))
      else none := rfl
  rw [hword, denotes_iff]
  by_cases hread : unsigned s.toList ≠ [] ∧ ∀ c ∈ unsigned s.toList, c.isDigit = true
  · rw [if_neg (by simpa [not_or] using hread), Option.ite_none_right_eq_some]
    constructor
    · rintro ⟨hfits, hvalue⟩
      obtain rfl := Option.some.inj hvalue
      exact ⟨⟨hread, rfl⟩, hfits⟩
    · rintro ⟨⟨-, rfl⟩, hfits⟩
      exact ⟨hfits, rfl⟩
  · rw [if_pos (by simpa [or_iff_not_imp_left] using hread)]
    exact ⟨nofun, fun h => absurd h.1.1 hread⟩

end Words

section Under

variable {env : Environment}

private theorem storageKindUnder_eq_ok_iff {written kind : StorageKind} :
    storageKindUnder env written = .ok kind ↔ match env "PARLEY_STORAGE" with
      | none => kind = written
      | some name => Text.lowerAscii name ∈ kind.names := by
  rw [storageKindUnder]
  cases env "PARLEY_STORAGE" with
  | none => exact ⟨fun h => (Except.ok.inj h).symm, fun h => congrArg _ h.symm⟩
  | some name => exact mapError_eq_ok_iff.trans StorageKind.ofText?_eq_ok_iff

private theorem maxDepthUnder_eq_ok_iff {written maxDepth : UInt32} :
    maxDepthUnder env written = .ok maxDepth ↔ match env "PARLEY_MAX_DEPTH" with
      | none => maxDepth = written
      | some value => Text.Denotes (Text.trim value) maxDepth.toNat := by
  rw [maxDepthUnder]
  cases env "PARLEY_MAX_DEPTH" with
  | none => exact ⟨fun h => (Except.ok.inj h).symm, fun h => congrArg _ h.symm⟩
  | some value =>
    have hword : wordOf? 32 (Text.trim value) = some maxDepth.toNat ↔
        Text.Denotes (Text.trim value) maxDepth.toNat := by
      rw [wordOf?_eq_some_iff]
      exact and_iff_left maxDepth.toNat_lt
    refine Iff.trans ?_ hword
    dsimp only
    cases hnumber : wordOf? 32 (Text.trim value) with
    | none => exact ⟨nofun, nofun⟩
    | some n =>
      have hfits : n < 2 ^ 32 := (wordOf?_eq_some_iff.mp hnumber).2
      constructor
      · intro h
        obtain rfl := Except.ok.inj h
        exact congrArg some (UInt32.toNat_ofNat_of_lt hfits).symm
      · intro h
        obtain rfl := Option.some.inj h
        exact congrArg Except.ok (UInt32.ofNat_toNat ..)

/-- The environment makes of a written configuration what it takes precedence in. -/
theorem under_eq_ok_iff {written config : Configuration} :
    written.under env = .ok config ↔ Overridden env written config := by
  rw [under, bind_eq_ok_iff]
  constructor
  · rintro ⟨kind, hkind, hbehind⟩
    obtain ⟨maxDepth, hdepth, hmade⟩ := bind_eq_ok_iff.mp hbehind
    obtain rfl := Except.ok.inj hmade
    exact ⟨rfl, storageKindUnder_eq_ok_iff.mp hkind, maxDepthUnder_eq_ok_iff.mp hdepth, rfl⟩
  · rintro ⟨hpath, hkind, hdepth, hothers⟩
    refine ⟨_, storageKindUnder_eq_ok_iff.mpr hkind, bind_eq_ok_iff.mpr
      ⟨_, maxDepthUnder_eq_ok_iff.mpr hdepth, ?_⟩⟩
    rw [hothers, ← hpath]
    rfl

end Under

theorem validated_eq_ok_iff {written config : Configuration} :
    written.validated = .ok config ↔ config = written ∧ config.KeepsRules := by
  rw [← violation?_eq_none_iff_keepsRules, validated]
  constructor
  · intro h
    split at h
    · cases h
    · next hnone =>
      obtain rfl := Except.ok.inj h
      exact ⟨rfl, hnone⟩
  · rintro ⟨rfl, hnone⟩
    rw [hnone]

theorem validated_eq_error_iff {config : Configuration} {violation : Violation} :
    config.validated = .error violation ↔ config.violation? = some violation := by
  rw [validated]
  cases config.violation? <;> simp

/-- The standard configuration keeps the rules, so it need not be validated. -/
theorem keepsRules_standard : standard.KeepsRules :=
  violation?_eq_none_iff_keepsRules.mp rfl

/-- A configuration file is read as it is written, if it keeps the rules. -/
theorem ofSource_eq_ok_iff {source : ConfigSource} {config : Configuration} :
    ofSource source = .ok config ↔ source.Writes config ∧ config.KeepsRules := by
  cases source with
  | missing =>
    constructor
    · intro h
      obtain rfl := Except.ok.inj h
      exact ⟨rfl, keepsRules_standard⟩
    · rintro ⟨rfl, -⟩
      rfl
  | unreadable =>
    constructor
    · intro h
      cases h
    · rintro ⟨hwrites, -⟩
      exact hwrites.elim
  | text content =>
    rw [ofSource, ConfigSource.Writes]
    cases Toml.readAs? decode content with
    | none => simp
    | some written => rw [mapError_eq_ok_iff, validated_eq_ok_iff, Option.some_inj, eq_comm]

/-- A configuration is loaded exactly if it is made from a written one that keeps the rules by the
environment, in the three fields that this has variables for, and keeps the rules itself. A
configuration that is turned away breaks the rule that is reported. -/
theorem loaded_keepsRules (source : ConfigSource) (env : Environment) (config : Configuration) :
    (load source env = .ok config ↔ ∃ written, source.Writes written ∧ written.KeepsRules ∧
      Overridden env written config ∧ config.KeepsRules) ∧
    ∀ violation, config.validated = .error violation →
      violation.BrokenBy config ∧ ¬ config.KeepsRules := by
  constructor
  · rw [load, bind_eq_ok_iff]
    constructor
    · rintro ⟨written, hwritten, hbehind⟩
      obtain ⟨made, hmade, hvalid⟩ := bind_eq_ok_iff.mp hbehind
      obtain ⟨hwrites, hrules⟩ := ofSource_eq_ok_iff.mp hwritten
      obtain ⟨rfl, hkeeps⟩ := validated_eq_ok_iff.mp (mapError_eq_ok_iff.mp hvalid)
      exact ⟨written, hwrites, hrules, under_eq_ok_iff.mp (mapError_eq_ok_iff.mp hmade), hkeeps⟩
    · rintro ⟨written, hwrites, hrules, hmade, hkeeps⟩
      refine ⟨written, ofSource_eq_ok_iff.mpr ⟨hwrites, hrules⟩, bind_eq_ok_iff.mpr ⟨config, ?_, ?_⟩⟩
      · exact mapError_eq_ok_iff.mpr (under_eq_ok_iff.mpr hmade)
      · exact mapError_eq_ok_iff.mpr (validated_eq_ok_iff.mpr ⟨rfl, hkeeps⟩)
  · intro violation h
    have hbroken := brokenBy_of_violation? (validated_eq_error_iff.mp h)
    exact ⟨hbroken, not_keepsRules_of_brokenBy hbroken⟩

/-- An environment with all three variables. -/
def fullEnvironment : Environment
  | "PARLEY_DB_PATH" => some "notes.sqlite"
  | "PARLEY_STORAGE" => some "In_Memory"
  | "PARLEY_MAX_DEPTH" => some " +03 "
  | _ => none

/-- The standard configuration under this environment. -/
def underFullEnvironment : Configuration :=
  { standard with
    storage := ⟨.memory, some "notes.sqlite"⟩
    settings := { standard.settings with maxDepth := 3 } }

/-- The standard configuration with no calls of the model. -/
def depthless : Configuration :=
  { standard with settings := { standard.settings with maxDepth := 0 } }

/-- Without a file, the environment makes its fields of the standard configuration; bounds of zero are
turned away. -/
theorem loaded_keepsRules_fullEnvironment :
    load .missing fullEnvironment = .ok underFullEnvironment ∧
      depthless.validated = .error .zeroBound ∧ ¬ depthless.KeepsRules := by
  have hoverridden : Overridden fullEnvironment standard underFullEnvironment := by
    have hkind : Text.lowerAscii "In_Memory" ∈ StorageKind.memory.names := by decide
    have hdepth : Text.Denotes (Text.trim " +03 ") 3 :=
      ⟨['0', '3'], .inr (by decide), by decide, by simp, by decide⟩
    exact ⟨rfl, hkind, hdepth, rfl⟩
  have hrules : underFullEnvironment.KeepsRules := violation?_eq_none_iff_keepsRules.mp rfl
  have hload := (loaded_keepsRules .missing fullEnvironment underFullEnvironment).1.mpr
    ⟨standard, rfl, keepsRules_standard, hoverridden, hrules⟩
  have hzero : depthless.validated = .error .zeroBound := rfl
  exact ⟨hload, hzero, ((loaded_keepsRules .missing fullEnvironment depthless).2 .zeroBound hzero).2⟩

end Configuration

end Colloquy
