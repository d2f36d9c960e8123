import Colloquy.Json.Printer
import Colloquy.Json.Reader
import Colloquy.Proofs.Text.Steadiness

/-!
# Scalars in a text

A text between quotes, an integer and a double are read as they were printed, whatever follows them,
as long as it is no part of a number. Of a double this is said only where the text of the double
alone is read as the double.
-/

namespace Colloquy.Json

open Text Text.Scan

section Texts

/-- Control characters are written in base sixteen. -/
private theorem hexNumber?_control {n : Nat} (h : n < 0x20) :
    hexNumber? ['0', '0', hexDigit (n / 16), hexDigit n] = some n := by
  have hall : ∀ n < 0x20, hexNumber? ['0', '0', hexDigit (n / 16), hexDigit n] = some n := by
    decide
  exact hall n h

/-- A character that stands for itself is a piece. -/
private theorem pieces_bare {c : Char} (hquote : c ≠ '"') (hslash : c ≠ '\\')
    (hcontrol : ¬ c.toNat < 0x20) (rest : List Char) :
    pieces (c :: rest) = (pieces rest).map fun read => (.char c :: read.1, read.2) := by
  rw [pieces]
  · simp only [hcontrol, decide_false, beq_eq_false_iff_ne.mpr hslash, Bool.or_self,
      Bool.false_eq_true, if_false, Option.map_eq_bind]
    rfl
  · exact hquote
  · intro a b c d rest h
    exact absurd h hslash
  · intro e rest h
    exact absurd h hslash

/-- A letter behind a backslash is a piece. -/
private theorem pieces_escaped {e c : Char} (hunit : e ≠ 'u') (hescaped : escaped? e = some c)
    (rest : List Char) :
    pieces ('\\' :: e :: rest) = (pieces rest).map fun read => (.char c :: read.1, read.2) := by
  rw [pieces]
  · simp only [hescaped, Option.map_eq_bind]
    rfl
  · intro a b c d rest h
    exact absurd h hunit

/-- Digits in base sixteen are a piece. -/
private theorem pieces_unit {a b c d : Char} {n : Nat} (hnumber : hexNumber? [a, b, c, d] = some n)
    (rest : List Char) :
    pieces ('\\' :: 'u' :: a :: b :: c :: d :: rest) =
      (pieces rest).map fun read => (.unit n :: read.1, read.2) := by
  rw [pieces, hnumber, Option.map_eq_bind]
  rfl

/-- A unit below the halves of characters is a character. -/
private theorem joined?_unit {n : Nat} (h : n < 0xD800) (ps : List Piece) :
    joined? (.unit n :: ps) = (Char.ofNat n :: ·) <$> joined? ps := by
  have hhigh : isHighHalf n = false := by
    rw [isHighHalf]
    simp only [Bool.and_eq_false_iff, decide_eq_false_iff_not]
    omega
  have hlow : isLowHalf n = false := by
    rw [isLowHalf]
    simp only [Bool.and_eq_false_iff, decide_eq_false_iff_not]
    omega
  rcases ps with _ | ⟨_ | _, ps⟩ <;> simp [joined?, hhigh, hlow]

/-- A character between quotes is read as one piece, which stands for the character. -/
private theorem exists_piece (c : Char) :
    ∃ p, (∀ rest, pieces (quotedChar c ++ rest) =
        (pieces rest).map fun read => (p :: read.1, read.2)) ∧
      ∀ ps, joined? (p :: ps) = (c :: ·) <$> joined? ps := by
  rw [quotedChar]
  -- Seven characters have letters of their own behind the backslash.
  iterate 7
    split
    · next h => exact ⟨.char c, pieces_escaped (by decide) (by rw [h]; rfl), fun _ => rfl⟩
  split
  · next h =>
    refine ⟨.unit c.toNat, pieces_unit (hexNumber?_control h), fun ps => ?_⟩
    rw [joined?_unit (by omega), Char.ofNat_toNat]
  · next hquote hslash _ _ _ _ _ hcontrol =>
    exact ⟨.char c, pieces_bare hquote hslash hcontrol, fun _ => rfl⟩

/-- A text is read as it was put between quotes. -/
theorem quotedText_flatMap (s : String) (more : List Char) :
    quotedText (s.toList.flatMap quotedChar ++ '"' :: more) = some (some s, more) := by
  have hpieces : ∀ cs : List Char, ∃ ps, joined? ps = some cs ∧
      pieces (cs.flatMap quotedChar ++ '"' :: more) = some (ps, more) := by
    intro cs
    induction cs with
    | nil => exact ⟨[], rfl, by rw [List.flatMap_nil, List.nil_append, pieces]⟩
    | cons c cs ih =>
      obtain ⟨ps, hjoined, hread⟩ := ih
      obtain ⟨p, hpiece, hchar⟩ := exists_piece c
      refine ⟨p :: ps, by rw [hchar, hjoined]; rfl, ?_⟩
      rw [List.flatMap_cons, List.append_assoc, hpiece, hread]
      rfl
  obtain ⟨ps, hjoined, hread⟩ := hpieces s.toList
  rw [quotedText, hread]
  simp only [bind, Option.bind, hjoined, Option.map_some, String.ofList_toList]

end Texts

/-- What may stand behind a value: a mark that parts the parts of a list or record or closes it. -/
def Mark (c : Char) : Prop :=
  c = ',' ∨ c = ']' ∨ c = '}'

section Numerals

private theorem not_isDigit_of_mark {c : Char} (h : Mark c) : c.isDigit = false := by
  obtain rfl | rfl | rfl := h <;> rfl

/-- A mark is no other than the end of the text where a sign, a point or the like may stand. -/
private theorem steady_startsWith {p : Char → Bool} (hcomma : p ',' = false)
    (hbracket : p ']' = false) (hbrace : p '}' = false) : Steady Mark (startsWith p) :=
  .startsWith fun c h => by obtain rfl | rfl | rfl := h <;> assumption

private theorem steady_wholeDigits : Steady Mark wholeDigits :=
  (Steady.digits (fun _ => not_isDigit_of_mark) 1 none).bind fun _ => .ite .failure (.pure _)

private theorem steady_fractionDigits : Steady Mark fractionDigits :=
  (steady_startsWith rfl rfl rfl).bind fun _ =>
    .ite (.bind .next fun _ =>
      (Steady.digits (fun _ => not_isDigit_of_mark) 1 none).bind fun _ => .pure _) (.pure _)

private theorem steady_signedExponent : Steady Mark signedExponent := by
  have hnumber : Steady Mark (number 1 none) := .number (fun _ => not_isDigit_of_mark) 1 none
  refine (steady_startsWith rfl rfl rfl).bind fun _ => .ite (.bind .next fun _ => ?_) (.pure _)
  refine (steady_startsWith rfl rfl rfl).bind fun _ => .ite ?_ ?_
  · exact .bind .next fun _ => hnumber.bind fun _ => .pure _
  · refine (steady_startsWith rfl rfl rfl).bind fun _ => .ite ?_ ?_
    · exact .bind .next fun _ => hnumber.bind fun _ => .pure _
    · exact hnumber.bind fun _ => .pure _

/-- A numeral is read in the same way in front of a mark. -/
theorem steady_numeral : Steady Mark numeral := by
  refine (steady_startsWith rfl rfl rfl).bind fun negative => ?_
  have hrest : Steady Mark (do
      let whole ← wholeDigits
      let fraction ← fractionDigits
      let exponent ← signedExponent
      pure (Numeral.mk negative whole fraction exponent)) :=
    steady_wholeDigits.bind fun _ => steady_fractionDigits.bind fun _ =>
      steady_signedExponent.bind fun _ => .pure _
  exact .ite (.bind .next fun _ => hrest) hrest

/-- A numeral begins with a sign or a digit. -/
theorem exists_head_of_numeral {cs rest : List Char} {read : Numeral}
    (h : numeral cs = some (read, rest)) :
    ∃ c cs', cs = c :: cs' ∧ (c = '-' ∨ c.isDigit = true) := by
  cases cs with
  | nil => cases h
  | cons c cs =>
    refine ⟨c, cs, rfl, Classical.byContradiction fun hother => ?_⟩
    obtain ⟨hsign, hdigit⟩ := not_or.mp hother
    have hstart : startsWith (· == '-') (c :: cs) = some (false, c :: cs) := by
      change some (c == '-', c :: cs) = _
      rw [beq_eq_false_iff_ne.mpr hsign]
    have hwhole : wholeDigits (c :: cs) = none := by
      rw [wholeDigits, bind_apply, digits_apply]
      dsimp only [Option.elim]
      rw [List.takeWhile_cons_of_neg hdigit]
      rfl
    rw [numeral, bind_apply, hstart] at h
    simp only [Option.bind_some, Bool.false_eq_true, if_false, bind_apply, hwhole] at h
    cases h

end Numerals

section Integers

/-- A significand takes all digits of a number that fits. -/
private theorem extend_of_le {ds : List Char} {n : Nat} (h : Nat.ofDigitChars 10 ds n ≤ maxWord) :
    extend n ds = (Nat.ofDigitChars 10 ds n, ds.length) := by
  induction ds generalizing n with
  | nil => rfl
  | cons d ds ih =>
    have hfits : 10 * n + (d.toNat - '0'.toNat) ≤ maxWord := by
      rw [Nat.ofDigitChars_cons, Nat.ofDigitChars_eq_ofDigitChars_zero] at h
      exact Nat.le_trans (Nat.le_trans (Nat.le_mul_of_pos_left _ (Nat.pow_pos (by decide)))
        (Nat.le_add_right ..)) h
    rw [Nat.ofDigitChars_cons] at h
    rw [extend, if_pos hfits, ih h, Nat.ofDigitChars_cons]
    rfl

/-- Only nought begins with the digit nought. -/
private theorem eq_zero_of_head {n : Nat} (h : (Nat.toDigits 10 n).head? = some '0') : n = 0 := by
  induction n using Nat.strongRecOn with
  | ind n ih =>
    by_cases hsmall : n < 10
    · have hall : ∀ n < 10, (Nat.toDigits 10 n).head? = some '0' → n = 0 := by decide
      exact hall n hsmall h
    · -- The other digits are those of a tenth, which is not nought.
      have htenth : (Nat.toDigits 10 (n / 10)).head? = some '0' := by
        rw [Nat.toDigits_of_base_le (by decide) (Nat.le_of_not_lt hsmall), List.head?_append] at h
        cases hhead : (Nat.toDigits 10 (n / 10)).head? with
        | none => exact absurd (List.head?_eq_none_iff.mp hhead) Nat.toDigits_ne_nil
        | some c =>
          rw [hhead] at h
          exact h
      have hrest := ih (n / 10) (by omega) htenth
      omega

private theorem wholeDigits_toDigits (n : Nat) :
    wholeDigits (Nat.toDigits 10 n) = some (Nat.toDigits 10 n, []) := by
  have hrun : (Nat.toDigits 10 n).takeWhile Char.isDigit = Nat.toDigits 10 n := by
    have hall : (Nat.toDigits 10 n ++ []).takeWhile Char.isDigit =
        Nat.toDigits 10 n ++ [].takeWhile Char.isDigit :=
      List.takeWhile_append_of_pos fun c hc =>
        Nat.isDigit_of_mem_toDigits (by decide) (by decide) hc
    simpa using hall
  have hleast : ¬ (Nat.toDigits 10 n).length < 1 := Nat.not_lt.mpr Nat.length_toDigits_pos
  have hlead : ((Nat.toDigits 10 n).head? == some '0' &&
      decide ((Nat.toDigits 10 n).length ≠ 1)) = false := by
    rw [Bool.and_eq_false_imp]
    intro hhead
    obtain rfl := eq_zero_of_head (beq_iff_eq.mp hhead)
    rfl
  rw [wholeDigits, bind_apply, digits_apply]
  dsimp only [Option.elim]
  rw [hrun, if_neg hleast]
  simp only [Option.bind_some, hlead, Bool.false_eq_true, if_false, List.drop_length]
  rfl

/-- A number that is not negative begins with a digit. -/
private theorem startsWith_toDigits (n : Nat) :
    startsWith (· == '-') (Nat.toDigits 10 n) = some (false, Nat.toDigits 10 n) := by
  cases hds : Nat.toDigits 10 n with
  | nil => rfl
  | cons c cs =>
    have hmem : c ∈ Nat.toDigits 10 n := by
      rw [hds]
      exact List.mem_cons_self ..
    have hdigit := Nat.isDigit_of_mem_toDigits (by decide) (by decide) hmem
    have hsign : (c == '-') = false := by
      refine beq_eq_false_iff_ne.mpr ?_
      rintro rfl
      exact absurd hdigit (by decide)
    change some (c == '-', c :: cs) = _
    rw [hsign]

private theorem numeral_toDigits (n : Nat) :
    numeral (Nat.toDigits 10 n) = some (⟨false, Nat.toDigits 10 n, none, none⟩, []) := by
  rw [numeral, bind_apply, startsWith_toDigits]
  simp only [Option.bind_some, Bool.false_eq_true, if_false, bind_apply, wholeDigits_toDigits]
  rfl

private theorem numeral_minus_toDigits (n : Nat) :
    numeral ('-' :: Nat.toDigits 10 n) = some (⟨true, Nat.toDigits 10 n, none, none⟩, []) := by
  have hsign : startsWith (· == '-') ('-' :: Nat.toDigits 10 n) =
      some (true, '-' :: Nat.toDigits 10 n) := rfl
  have hnext : next ('-' :: Nat.toDigits 10 n) = some ('-', Nat.toDigits 10 n) := rfl
  rw [numeral, bind_apply, hsign]
  simp only [Option.bind_some, if_true, bind_apply, hnext, wholeDigits_toDigits]
  rfl

private theorem extend_toDigits {n : Nat} (h : n ≤ maxWord) :
    extend 0 (Nat.toDigits 10 n) = (n, (Nat.toDigits 10 n).length) := by
  rw [extend_of_le (by rwa [Nat.ofDigitChars_ten_toDigits]), Nat.ofDigitChars_ten_toDigits]

/-- An integer that 64 bits hold is read from its digits. -/
theorem numeral_integer {n : Int} (hleast : -(Word.count 63 : Int) ≤ n)
    (hmost : n < Word.count 64) :
    ∃ read, numeral (toString n).toList = some (read, []) ∧ read.datum = .integer n := by
  have hword : (maxWord : Int) = Word.count 64 - 1 := by decide
  have hhalf : (2 * Word.count 63 : Int) = Word.count 64 := by decide
  rw [Int.toString_eq_repr, Int.repr_eq_if]
  split
  · next hsign =>
    obtain ⟨n, rfl⟩ := Int.eq_ofNat_of_zero_le hsign
    have hfits : n ≤ maxWord := by omega
    refine ⟨⟨false, Nat.toDigits 10 n, none, none⟩, ?_, ?_⟩
    · rw [Int.toNat_natCast, Nat.repr_eq_ofList_toDigits, String.toList_ofList]
      exact numeral_toDigits n
    · simp only [Numeral.datum, extend_toDigits hfits]
      simp
  · next hsign =>
    obtain ⟨n, rfl⟩ : ∃ m : Nat, n = -m := ⟨(-n).toNat, by omega⟩
    have hfits : n ≤ maxWord := by omega
    have hnegative : (n = 0 || Word.count 63 < n) = false := by
      simp
      omega
    refine ⟨⟨true, Nat.toDigits 10 n, none, none⟩, ?_, ?_⟩
    · rw [Int.neg_neg, Int.toNat_natCast, Nat.repr_eq_ofList_toDigits, String.toList_append,
        String.toList_ofList, String.toList_ofList]
      exact numeral_minus_toDigits n
    · simp only [Numeral.datum, extend_toDigits hfits]
      simp [hnegative]

end Integers

open Decimal

section Characters

/-- The characters that the text of a number may have. -/
def Numeric (c : Char) : Prop :=
  c.isAlphanum = true ∨ c = '-' ∨ c = '+' ∨ c = '.'

private theorem numeric_minus : Numeric '-' :=
  .inr (.inl rfl)

private theorem numeric_point : Numeric '.' :=
  .inr (.inr (.inr rfl))

private theorem numeric_zero : Numeric '0' :=
  .inl rfl

private theorem numeric_digitsOf (n : Nat) : ∀ c ∈ digitsOf n, Numeric c := by
  intro c hc
  have hdigit : c.isDigit = true := Nat.isDigit_of_mem_toDigits (by decide) (by decide) hc
  exact .inl (by rw [Char.isAlphanum, hdigit, Bool.or_true])

private theorem numeric_replicate (n : Nat) : ∀ c ∈ List.replicate n '0', Numeric c := by
  intro c hc
  rw [List.eq_of_mem_replicate hc]
  exact numeric_zero

private theorem numeric_positional (d : Scaled) :
    ∀ c ∈ d.positional numberLayout.integerEnd, Numeric c := by
  have hdigits := numeric_digitsOf d.digits
  have hend : ∀ c ∈ numberLayout.integerEnd.toList, Numeric c :=
    List.forall_mem_cons.mpr ⟨numeric_point, List.forall_mem_singleton.mpr numeric_zero⟩
  rw [Scaled.positional]
  split
  · simp only [List.forall_mem_append]
    exact ⟨⟨hdigits, numeric_replicate _⟩, hend⟩
  dsimp only
  split
  · simp only [List.forall_mem_append, List.forall_mem_cons]
    exact ⟨fun c hc => hdigits c (List.mem_of_mem_take hc), numeric_point,
      fun c hc => hdigits c (List.mem_of_mem_drop hc)⟩
  · simp only [List.forall_mem_append, List.forall_mem_cons]
    exact ⟨⟨numeric_zero, numeric_point, numeric_replicate _⟩, hdigits⟩

private theorem numeric_scientific (d : Scaled) (leading : Int) :
    ∀ c ∈ d.scientific numberLayout.plus leading, Numeric c := by
  have hdigits := numeric_digitsOf d.digits
  have hplus : ∀ c ∈ numberLayout.plus.toList, Numeric c :=
    List.forall_mem_singleton.mpr (.inr (.inr (.inl rfl)))
  simp only [Scaled.scientific, List.forall_mem_append, List.forall_mem_cons]
  refine ⟨?_, .inl rfl, ?_⟩
  · cases hds : digitsOf d.digits with
    | nil => exact fun c hc => absurd hc List.not_mem_nil
    | cons digit rest =>
      rw [hds] at hdigits
      obtain ⟨hdigit, hrest⟩ := List.forall_mem_cons.mp hdigits
      cases rest with
      | nil => exact hdigits
      | cons next rest =>
        exact List.forall_mem_cons.mpr ⟨hdigit, List.forall_mem_cons.mpr ⟨numeric_point, hrest⟩⟩
  · split
    · exact List.forall_mem_cons.mpr ⟨numeric_minus, numeric_digitsOf _⟩
    · exact List.forall_mem_append.mpr ⟨hplus, numeric_digitsOf _⟩

private theorem numeric_decimal (d : Scaled) : ∀ c ∈ numberLayout.decimal d, Numeric c := by
  rw [Layout.decimal]
  split
  · exact numeric_positional d
  · exact numeric_scientific d _

theorem numeric_of_all {cs : List Char} (h : cs.all Char.isAlphanum = true) :
    ∀ c ∈ cs, Numeric c :=
  fun c hc => .inl (List.all_eq_true.mp h c hc)

private theorem numeric_null : ∀ c ∈ "null".toList, Numeric c :=
  numeric_of_all (by decide)

private theorem numeric_reading (reading : Reading) :
    ∀ c ∈ numberLayout.reading reading, Numeric c := by
  have hsign : ∀ negative : Bool, ∀ c ∈ if negative then ['-'] else [], Numeric c := by
    intro negative
    cases negative with
    | false => exact fun c hc => absurd hc List.not_mem_nil
    | true => exact List.forall_mem_singleton.mpr numeric_minus
  cases reading with
  | nan => exact numeric_null
  | infinite negative => exact List.forall_mem_append.mpr ⟨hsign negative, numeric_null⟩
  | finite negative magnitude =>
    exact List.forall_mem_append.mpr ⟨hsign negative, numeric_decimal _⟩

theorem numeric_doubleText (x : Float) : ∀ c ∈ (doubleText x).toList, Numeric c := by
  rw [doubleText]
  split
  · rw [Layout.float, String.toList_ofList]
    exact numeric_reading _
  · exact numeric_null

theorem numeric_singleText (x : Float32) : ∀ c ∈ (singleText x).toList, Numeric c := by
  rw [singleText]
  split
  · rw [Layout.float32, String.toList_ofList]
    exact numeric_reading _
  · exact numeric_null

theorem numeric_toString (n : Int) : ∀ c ∈ (toString n).toList, Numeric c := by
  rw [Int.toString_eq_repr, Int.repr_eq_if]
  split
  · rw [Nat.repr_eq_ofList_toDigits, String.toList_ofList]
    exact numeric_digitsOf _
  · rw [Nat.repr_eq_ofList_toDigits, String.toList_append, String.toList_ofList,
      String.toList_ofList]
    exact List.forall_mem_append.mpr ⟨List.forall_mem_singleton.mpr numeric_minus,
      numeric_digitsOf _⟩

private theorem not_isSpace_of_numeric {c : Char} (h : Numeric c) : isSpace c = false := by
  rw [Bool.eq_false_iff]
  intro hspace
  simp only [isSpace, Bool.or_eq_true, beq_iff_eq] at hspace
  obtain ((rfl | rfl) | rfl) | rfl := hspace <;> exact absurd h (by simp [Numeric])

end Characters

section Doubles

/-- What begins with a brace is read as a record and what is read as a numeral as a number; nothing
else is either. -/
theorem value_cases {fuel : Nat} {cs rest : List Char} {d : Datum}
    (h : value fuel cs = some (d, rest)) :
    (∃ behind members, cs.dropWhile isSpace = '\x7b' :: behind ∧ d = .record members) ∨
      (∃ read, numeral (cs.dropWhile isSpace) = some (read, rest) ∧ read.datum = d) ∨
      (∀ members, d ≠ .record members) ∧ ∀ x, d ≠ .float x := by
  cases fuel with
  | zero => cases h
  | succ fuel =>
    rw [value] at h
    split at h
    case h_2 behind heq =>
      refine .inl ⟨behind, ?_⟩
      split at h
      · cases h
        exact ⟨_, heq, rfl⟩
      · obtain ⟨read, -, hread⟩ := Option.bind_eq_some_iff.mp h
        cases hread
        exact ⟨_, heq, rfl⟩
    case h_7 =>
      obtain ⟨⟨read, more⟩, hnumeral, hread⟩ := Option.bind_eq_some_iff.mp h
      obtain ⟨hdatum, rfl⟩ := Prod.mk.inj (Option.some.inj hread)
      exact .inr (.inl ⟨read, hnumeral, hdatum⟩)
    case h_1 =>
      refine .inr (.inr ?_)
      split at h
      · cases h
        exact ⟨nofun, nofun⟩
      · obtain ⟨read, -, hread⟩ := Option.bind_eq_some_iff.mp h
        cases hread
        exact ⟨nofun, nofun⟩
    case h_3 =>
      obtain ⟨⟨s, more⟩, -, hread⟩ := Option.bind_eq_some_iff.mp h
      cases s <;> cases hread <;> exact .inr (.inr ⟨nofun, nofun⟩)
    all_goals
      obtain ⟨_, -, hread⟩ := Option.map_eq_some_iff.mp h
      cases hread
      exact .inr (.inr ⟨nofun, nofun⟩)

/-- A double is decoded from the double that it is. -/
private theorem eq_float_of_decode {d : Datum} {x : Float}
    (h : decode rules d = some (.double x)) : d = .float x ∧ x.isFinite = true := by
  cases d with
  | float y =>
    rw [decode] at h
    split at h
    · next hfinite =>
      cases h
      exact ⟨rfl, hfinite⟩
    · cases h
  | list items =>
    obtain ⟨_, -, hread⟩ := Option.map_eq_some_iff.mp h
    cases hread
  | record members =>
    obtain ⟨_, -, hread⟩ := Option.map_eq_some_iff.mp h
    cases hread
  | _ => cases h

/-- A double that is read from its text is read from the numeral that its text is. -/
theorem numeral_double {x : Float} (h : read? (print (.double x)) = some (.double x)) :
    x.isFinite = true ∧
      ∃ read, numeral (doubleText x).toList = some (read, []) ∧ read.datum = .float x := by
  have hspaces : ∀ c ∈ (doubleText x).toList, isSpace c = false :=
    fun c hc => not_isSpace_of_numeric (numeric_doubleText x c hc)
  have htrimmed : (doubleText x).toList.dropWhile isSpace = (doubleText x).toList := by
    cases hcs : (doubleText x).toList with
    | nil => rfl
    | cons c cs =>
      have hc := hspaces c (by rw [hcs]; exact List.mem_cons_self ..)
      exact List.dropWhile_cons_of_neg (by rw [hc]; decide)
  obtain ⟨d, hdatum, hdecode⟩ := Option.bind_eq_some_iff.mp h
  obtain ⟨rfl, hfinite⟩ := eq_float_of_decode hdecode
  obtain ⟨⟨d, rest⟩, hvalue, hend⟩ := Option.bind_eq_some_iff.mp hdatum
  rw [print, String.toList_ofList, chars] at hvalue
  dsimp only at hend
  split at hend
  · next hblank =>
    cases hend
    have hfloat : ∃ read, numeral ((doubleText x).toList.dropWhile isSpace) = some (read, rest) ∧
        read.datum = .float x := by
      obtain ⟨_, _, -, hrecord⟩ | hread | ⟨-, hother⟩ := value_cases hvalue
      · cases hrecord
      · exact hread
      · exact absurd rfl (hother x)
    obtain ⟨read, hnumeral, hread⟩ := hfloat
    rw [htrimmed] at hnumeral
    obtain ⟨hsuffix, -⟩ := steady_numeral _ _ _ hnumeral
    have hrest : rest = [] := by
      refine List.eq_nil_iff_forall_not_mem.mpr fun c hc => ?_
      have hspace := List.all_eq_true.mp hblank c hc
      rw [hspaces c (hsuffix.subset hc)] at hspace
      cases hspace
    rw [hrest] at hnumeral
    exact ⟨hfinite, read, hnumeral, hread⟩
  · cases hend

end Doubles

end Colloquy.Json
