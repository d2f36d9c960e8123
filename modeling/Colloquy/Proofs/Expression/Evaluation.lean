import Colloquy.Proofs.Attempts
import Colloquy.Proofs.Expression.Readings
import Colloquy.Proofs.Text.Steadiness
import Mathlib.Data.List.TakeWhile

/-!
# Values of expressions

Which texts have a value, told without a reader: a text is spelled as tokens, the tokens are those of
one sum and no other, the sum is nested no deeper than the greatest level and divides by no zero, and
its value is that of the text. Every other text has a fault.
-/

namespace Colloquy.Expression

/-- How tokens are spelled: with blanks in front of them and behind them, each sign by its own
character, and each number by a run of digits and points that is as long as can be. -/
inductive Spells : List Char → List Token → Prop
  /-- No characters are no tokens. -/
  | nil : Spells [] []
  /-- A blank is passed over. -/
  | blank {c : Char} {cs : List Char} {ts : List Token} (hc : Text.isBlank c = true)
    (h : Spells cs ts) : Spells (c :: cs) ts
  /-- A sign or a parenthesis is one character. -/
  | symbol {c : Char} {cs : List Char} {token : Token} {ts : List Token}
    (hc : symbol? c = some token) (h : Spells cs ts) : Spells (c :: cs) (token :: ts)
  /-- A number is a whole run. -/
  | number {c : Char} {run cs : List Char} {x : Float} {ts : List Token}
    (hrun : ∀ d ∈ c :: run, isNumberChar d = true) (hend : ∀ d ∈ cs.head?, isNumberChar d = false)
    (hx : number? (c :: run) = some x) (h : Spells cs ts) :
    Spells (c :: (run ++ cs)) (.number x :: ts)

section Spelling

variable {c : Char} {cs : List Char} {token : Token} {ts : List Token}

theorem not_isBlank_of_symbol (h : symbol? c = some token) :
    ¬ Text.isBlank c = true := by
  unfold symbol? at h
  split at h <;> first | decide | cases h

/-- The characters of numbers by their code points. -/
private theorem isNumberChar_iff :
    isNumberChar c = true ↔ c.toNat = 46 ∨ 48 ≤ c.toNat ∧ c.toNat ≤ 57 := by
  have hpoint : c = '.' ↔ c.toNat = 46 := Char.toNat_inj.symm
  simp only [isNumberChar, Bool.or_eq_true, beq_iff_eq, hpoint, Char.isDigit, Bool.and_eq_true,
    decide_eq_true_eq, ge_iff_le, UInt32.le_iff_toNat_le]
  exact or_comm

theorem not_isBlank_of_isNumberChar (h : isNumberChar c = true) :
    ¬ Text.isBlank c = true := by
  have hcode := isNumberChar_iff.mp h
  simp only [Text.isBlank, Text.inRanges, Text.blankRanges, List.any_cons, List.any_nil,
    Bool.or_eq_true, Bool.and_eq_true, decide_eq_true_eq, Bool.false_eq_true, or_false]
  omega

theorem symbol?_eq_none_of_isNumberChar (h : isNumberChar c = true) :
    symbol? c = none := by
  unfold symbol?
  split <;> first | rfl | exact absurd h (by decide)

/-- A run of the characters of numbers ends where the next character is none of them. -/
theorem run_append {run : List Char} (hrun : ∀ d ∈ run, isNumberChar d = true)
    (hend : ∀ d ∈ cs.head?, isNumberChar d = false) :
    (run ++ cs).takeWhile isNumberChar = run ∧ (run ++ cs).dropWhile isNumberChar = cs := by
  have htake : (run ++ cs).takeWhile isNumberChar = run := by
    rw [Text.Scan.takeWhile_append_of_head run hend]
    exact List.takeWhile_eq_self_iff.mpr hrun
  have hboth : (run ++ cs).takeWhile isNumberChar ++ (run ++ cs).dropWhile isNumberChar = run ++ cs :=
    List.takeWhile_append_dropWhile
  rw [htake] at hboth
  exact ⟨htake, List.append_cancel_left hboth⟩

/-- Behind a run of characters stands none that belongs to it. -/
theorem head_dropWhile (p : Char → Bool) (cs : List Char) :
    ∀ d ∈ (cs.dropWhile p).head?, p d = false := by
  intro d hd
  have hfirst := List.head?_dropWhile_not p cs
  rw [Option.mem_def.mp hd] at hfirst
  simpa using hfirst

/-- A blank is passed over. -/
theorem tokens_blank (h : Text.isBlank c = true) : tokens (c :: cs) = tokens cs := by
  rw [tokens, if_pos h]

/-- A sign or a parenthesis is a token in front of those behind it. -/
theorem tokens_symbol (h : symbol? c = some token) :
    tokens (c :: cs) = tokens cs >>= fun more => .ok (token :: more) := by
  rw [tokens, if_neg (not_isBlank_of_symbol h), h]

/-- A run of digits and points is a token in front of those behind it if it is a number. -/
theorem tokens_run {run : List Char} (hrun : ∀ d ∈ c :: run, isNumberChar d = true)
    (hend : ∀ d ∈ cs.head?, isNumberChar d = false) :
    tokens (c :: (run ++ cs)) =
      match number? (c :: run) with
      | some x => tokens cs >>= fun more => .ok (.number x :: more)
      | none => .error (.invalidNumber (String.ofList (c :: run))) := by
  obtain ⟨hc, hrun⟩ := List.forall_mem_cons.mp hrun
  obtain ⟨htake, hdrop⟩ := run_append hrun hend
  rw [tokens, if_neg (not_isBlank_of_isNumberChar hc), symbol?_eq_none_of_isNumberChar hc]
  cases hx : number? (c :: run) <;> simp only [if_pos hc, htake, hdrop, hx]

/-- The reader of tokens reads what they are spelled as. -/
theorem tokens_eq_ok_iff : tokens cs = .ok ts ↔ Spells cs ts := by
  constructor
  · intro h
    fun_induction tokens cs generalizing ts with
    | case1 => cases h; exact .nil
    | case2 c rest hc ih => exact .blank hc (ih h)
    | case3 c rest hc token hsymbol ih =>
      obtain ⟨more, hmore, hts⟩ := bind_eq_ok_iff.mp h
      cases hts
      exact .symbol hsymbol (ih hmore)
    | case4 c rest _ _ hc _ x hx =>
      rename_i ih
      obtain ⟨more, hmore, hts⟩ := bind_eq_ok_iff.mp h
      cases hts
      have hrun : ∀ d ∈ c :: rest.takeWhile isNumberChar, isNumberChar d = true :=
        List.forall_mem_cons.mpr ⟨hc, fun d hd => List.mem_takeWhile_imp hd⟩
      have hspells := Spells.number hrun (head_dropWhile isNumberChar rest) hx (ih hmore)
      rwa [List.takeWhile_append_dropWhile] at hspells
    | case5 | case6 => cases h
  · intro h
    induction h with
    | nil => rw [tokens]
    | blank hc _ ih => rw [tokens_blank hc, ih]
    | symbol hc _ ih =>
      rw [tokens_symbol hc, ih]
      rfl
    | number hrun hend hx _ ih =>
      rw [tokens_run hrun hend, hx]
      dsimp only
      rw [ih]
      rfl

end Spelling

/-- All the tokens have a value when they are those of a sum. -/
theorem valueOf_eq_ok_iff {ts : List Token} {v : Float} :
    valueOf ts = .ok v ↔
      ∃ p : Phrase .sum, p.tokens = ts ∧ p.depth ≤ maxLevel ∧ p.Defined ∧ p.value = v := by
  have hwhole : valueOf ts = .ok v ↔ ∃ stop, (sum ⟨ts, 0, 0⟩).Gives v stop ∧ stop.rest = [] := by
    unfold valueOf
    rcases sum ⟨ts, 0, 0⟩ with ⟨_ | x, ⟨_ | ⟨token, rest⟩, taken, level⟩, hle⟩ <;>
      simp [Part.Gives, and_assoc]
  rw [hwhole]
  constructor
  · rintro ⟨stop, hgives, hnone⟩
    obtain ⟨p, hp, -, rfl⟩ := ((reads_of_level_le _ (Nat.zero_le _)).sum v stop).mp hgives
    have hrest := hp.covers.rest
    have hdepth := hp.depth_le
    rw [hnone, List.append_nil] at hrest
    rw [Nat.zero_add] at hdepth
    exact ⟨p, hrest.symm, hdepth, hp.defined, rfl⟩
  · rintro ⟨p, rfl, hdepth, hdefined, rfl⟩
    have hcovers : Covers p.tokens ⟨p.tokens, 0, 0⟩ ⟨[], p.tokens.length, 0⟩ :=
      ⟨(List.append_nil _).symm, (Nat.zero_add _).symm, rfl⟩
    have hspans : p.Spans ⟨p.tokens, 0, 0⟩ ⟨[], p.tokens.length, 0⟩ :=
      ⟨hcovers, by rwa [Nat.zero_add], hdefined⟩
    exact ⟨_, ((reads_of_level_le _ (Nat.zero_le _)).sum _ _).mpr
      ⟨p, hspans, Category.ends_nil _, rfl⟩, rfl⟩

/-- A text denotes a number: it is no longer than allowed, it spells the tokens of one sum and of no
other, nothing in the sum is nested too deep and no divisor in it is zero, and the number is what the
sum comes to. -/
def Denotes (expression : String) (v : Float) : Prop :=
  expression.length ≤ 4096 ∧
    ∃ p : Phrase .sum, (∀ q : Phrase .sum, Spells expression.toList q.tokens ↔ q = p) ∧
      p.depth ≤ 128 ∧ p.Defined ∧ p.value = v

private theorem evaluate_eq_ok {expression : String} {v : Float} :
    evaluate expression = .ok v ↔ expression.length ≤ maxCharacters ∧
      ∃ ts, tokens expression.toList = .ok ts ∧ valueOf ts = .ok v := by
  by_cases hlong : maxCharacters < expression.length
  · rw [evaluate_of_lt_length hlong]
    exact ⟨nofun, fun h => absurd h.1 (Nat.not_le.mpr hlong)⟩
  · rw [evaluate_of_length_le (Nat.not_lt.mp hlong)]
    constructor
    · exact fun h => ⟨Nat.not_lt.mp hlong, bind_eq_ok_iff.mp h⟩
    · rintro ⟨-, ts, htokens, hts⟩
      rw [htokens]
      exact hts

/-- A text has the value that it denotes, and a fault when it denotes none. -/
theorem evaluate_eq_ok_iff (expression : String) :
    (∀ v, evaluate expression = .ok v ↔ Denotes expression v) ∧
      ((∃ fault, evaluate expression = .error fault) ↔ ∀ v, ¬ Denotes expression v) := by
  have hvalue : ∀ v, evaluate expression = .ok v ↔ Denotes expression v := by
    intro v
    rw [evaluate_eq_ok]
    constructor
    · rintro ⟨hlength, ts, htokens, hts⟩
      obtain ⟨p, rfl, hdepth, hdefined, hv⟩ := valueOf_eq_ok_iff.mp hts
      refine ⟨hlength, p, fun q => ⟨fun hq => ?_, ?_⟩, hdepth, hdefined, hv⟩
      · have hsame := htokens.symm.trans (tokens_eq_ok_iff.mpr hq)
        exact (Phrase.tokens_injective p q (Except.ok.inj hsame)).symm
      · rintro rfl
        exact tokens_eq_ok_iff.mp htokens
    · rintro ⟨hlength, p, hspells, hdepth, hdefined, hv⟩
      exact ⟨hlength, p.tokens, tokens_eq_ok_iff.mpr ((hspells p).mpr rfl),
        valueOf_eq_ok_iff.mpr ⟨p, rfl, hdepth, hdefined, hv⟩⟩
  refine ⟨hvalue, ?_⟩
  simp only [← hvalue]
  cases evaluate expression <;> simp

end Colloquy.Expression
