import Colloquy.Proofs.Instant.Calendar
import Colloquy.Proofs.Text.Steadiness

/-!
# Exchanged and stored times

A time in one of the years that have four digits is read from its text, as it is exchanged and as it
is stored: every part has the digits that it was written with, and the date and the clock name the
time again.
-/

namespace Colloquy

namespace Instant

open Text Text.Scan

section Parts

private theorem isDigit_of_mem_digits {width n : Nat} {c : Char} (h : c ∈ digits width n) :
    c.isDigit = true := by
  induction width generalizing n with
  | zero => cases h
  | succ width ih =>
    obtain h | h := List.mem_append.mp h
    · exact ih h
    · have hall : ∀ d < 10, (Nat.digitChar d).isDigit = true := by decide
      rw [List.mem_singleton.mp h]
      exact hall _ (Nat.mod_lt n (by decide))

private theorem length_digits (width n : Nat) : (digits width n).length = width := by
  induction width generalizing n with
  | zero => rfl
  | succ width ih => rw [digits, List.length_append, ih, List.length_singleton]

/-- The last digits of a number are those of what is left of it. -/
private theorem digitsValue_digits (width n : Nat) :
    digitsValue (digits width n) = n % 10 ^ width := by
  induction width generalizing n with
  | zero => rw [Nat.pow_zero, Nat.mod_one]; rfl
  | succ width ih =>
    have hall : ∀ d < 10, (Nat.digitChar d).toNat - '0'.toNat = d := by decide
    have hlast := hall _ (Nat.mod_lt n (by decide))
    rw [digits, digitsValue, List.foldl_append, ← digitsValue, ih]
    simp only [List.foldl_cons, List.foldl_nil]
    rw [hlast, Nat.pow_succ', Nat.mod_mul]
    omega

private theorem digits_append {least width n : Nat} (hleast : least ≤ width) (rest : List Char) :
    Scan.digits least (some width) (digits width n ++ rest) = some (digits width n, rest) := by
  have hlength := length_digits width n
  have hrun : ((digits width n ++ rest).takeWhile Char.isDigit).take width = digits width n := by
    rw [List.takeWhile_append_of_pos fun c hc => isDigit_of_mem_digits hc,
      List.take_append_of_le_length (Nat.le_of_eq hlength.symm), List.take_of_length_le
      (Nat.le_of_eq hlength)]
  rw [digits_apply]
  dsimp only [Option.elim]
  rw [hrun, hlength, if_neg (Nat.not_lt.mpr hleast), List.drop_append_of_le_length
    (Nat.le_of_eq hlength.symm), List.drop_of_length_le (Nat.le_of_eq hlength), List.nil_append]

/-- A number that fits its width is read from its digits, whatever follows them. -/
private theorem number_append {least width n : Nat} (hleast : least ≤ width) (h : n < 10 ^ width)
    (rest : List Char) : number least (some width) (digits width n ++ rest) = some (n, rest) := by
  have hread : number least (some width) (digits width n ++ rest) =
      some (digitsValue (digits width n), rest) :=
    bind_of_eq (f := fun ds => pure (digitsValue ds)) (digits_append hleast rest)
  rw [hread, digitsValue_digits, Nat.mod_eq_of_lt h]

/-- Digits begin with a digit. -/
private theorem exists_head_digits {width : Nat} (hwidth : 0 < width) (n : Nat) :
    ∃ d ds, d < 10 ∧ digits width n = Nat.digitChar d :: ds := by
  obtain ⟨low, rfl⟩ : ∃ low, width = 1 + low := ⟨width - 1, by omega⟩
  exact ⟨_, _, Nat.mod_lt _ (by decide), digits_add 1 low n⟩

private theorem skipBlanks_cons {c : Char} (h : isBlank c = false) (cs : List Char) :
    skipBlanks (c :: cs) = some ((), c :: cs) := by
  change some ((), (c :: cs).dropWhile isBlank) = _
  rw [List.dropWhile_cons_of_neg (by rw [h]; decide)]

private theorem skipBlanks_digits {width : Nat} (hwidth : 0 < width) (n : Nat) (rest : List Char) :
    skipBlanks (digits width n ++ rest) = some ((), digits width n ++ rest) := by
  have hall : ∀ d < 10, isBlank (Nat.digitChar d) = false := by decide
  obtain ⟨d, ds, hd, hdigits⟩ := exists_head_digits hwidth n
  rw [hdigits, List.cons_append]
  exact skipBlanks_cons (hall d hd) _

private theorem startsWith_digits {c : Char} (hc : c.isDigit = false) {width : Nat}
    (hwidth : 0 < width) (n : Nat) (rest : List Char) :
    startsWith (· == c) (digits width n ++ rest) = some (false, digits width n ++ rest) := by
  have hall : ∀ d < 10, (Nat.digitChar d).isDigit = true := by decide
  obtain ⟨d, ds, hd, hdigits⟩ := exists_head_digits hwidth n
  have hother : (Nat.digitChar d == c) = false := by
    refine beq_eq_false_iff_ne.mpr ?_
    rintro rfl
    rw [hall d hd] at hc
    cases hc
  rw [hdigits, List.cons_append]
  change some (Nat.digitChar d == c, _) = _
  rw [hother]

private theorem lenientYear_digits {n : Nat} (h : n < 10000) (rest : List Char) :
    lenientYear (digits 4 n ++ rest) = some ((n : Int), rest) := by
  rw [lenientYear, bind_of_eq (skipBlanks_digits (by decide) n rest),
    bind_of_eq (startsWith_digits rfl (by decide) n rest)]
  simp only [Bool.false_eq_true, if_false]
  rw [bind_of_eq (startsWith_digits rfl (by decide) n rest)]
  simp only [Bool.false_eq_true, if_false]
  rw [bind_of_eq (number_append (by decide) h rest)]
  rfl

private theorem lenientField_digits {n : Nat} (h : n < 100) (rest : List Char) :
    lenientField (digits 2 n ++ rest) = some (n, rest) := by
  rw [lenientField, bind_of_eq (skipBlanks_digits (by decide) n rest)]
  exact number_append (by decide) h rest

private theorem satisfying_cons {p : Char → Bool} {c : Char} (h : p c = true) (rest : List Char) :
    satisfying p (c :: rest) = some (c, rest) := by
  change (if p c then pure c else failure : Scan Char) rest = _
  rw [if_pos h]
  rfl

private theorem lenientMark_cons {c : Char} (h : isBlank c = false) (rest : List Char) :
    lenientMark c (c :: rest) = some ((), rest) := by
  rw [lenientMark, bind_of_eq (skipBlanks_cons h rest)]
  exact bind_of_eq (satisfying_cons (beq_self_eq_true c) rest)

private theorem separator_cons (rest : List Char) : separator ('T' :: rest) = some ((), rest) :=
  bind_of_eq (satisfying_cons rfl rest)

private theorem lenientZone_zero : lenientZone ['Z'] = some (0, []) := by
  rfl

private theorem skipBlanks_nil : skipBlanks [] = some ((), []) :=
  rfl

private theorem exactly_cons (c : Char) (rest : List Char) :
    exactly c (c :: rest) = some ((), rest) :=
  bind_of_eq (satisfying_cons (beq_self_eq_true c) rest)

/-- A fraction is read from its digits, whatever noughts are left out behind them, up to what ends
it. -/
private theorem fraction_text (t : Instant) {c : Char} (hpoint : c ≠ '.') (hdigit : c.isDigit = false)
    (rest : List Char) :
    fraction (t.fractionText.toList ++ c :: rest) = some (t.nanos % 1000000000, c :: rest) := by
  obtain ⟨hzero, htext⟩ | ⟨width, low, hwidth, hsum, hdvd, htext⟩ := toList_fractionText t
  · have hstart : startsWith (· == '.') (c :: rest) = some (false, c :: rest) :=
      congrArg (fun starts => some (starts, c :: rest)) (beq_eq_false_iff_ne.mpr hpoint)
    rw [htext, hzero, List.nil_append, fraction, bind_of_eq hstart]
    rfl
  · obtain ⟨n, hn⟩ : ∃ n, n = t.nanos % 1000000000 / 10 ^ low := ⟨_, rfl⟩
    have hfits : n < 10 ^ width := by
      rw [hn, Nat.div_lt_iff_lt_mul (Nat.pow_pos (by decide)), ← Nat.pow_add, hsum]
      exact Nat.mod_lt _ (by decide)
    have hend : (c :: rest).takeWhile Char.isDigit = [] :=
      List.takeWhile_cons_of_neg (by rw [hdigit]; decide)
    have hrun : (digits width n ++ c :: rest).takeWhile Char.isDigit = digits width n := by
      rw [List.takeWhile_append_of_pos fun c hc => isDigit_of_mem_digits hc, hend, List.append_nil]
    have hlength := length_digits width n
    have hdigits : Scan.digits 1 (some 9) (digits width n ++ c :: rest) =
        some (digits width n, c :: rest) := by
      rw [digits_apply]
      dsimp only [Option.elim]
      rw [hrun, List.take_of_length_le (by omega), if_neg (by omega),
        List.drop_append_of_le_length (Nat.le_refl _), List.drop_length, List.nil_append]
    have hstart : startsWith (· == '.') ('.' :: (digits width n ++ c :: rest)) =
        some (true, '.' :: (digits width n ++ c :: rest)) := rfl
    have hnext : next ('.' :: (digits width n ++ c :: rest)) =
        some ('.', digits width n ++ c :: rest) := rfl
    have hskip : skipWhile Char.isDigit (c :: rest) = some ((), c :: rest) := by
      change some ((), (c :: rest).dropWhile Char.isDigit) = _
      rw [List.dropWhile_cons_of_neg (by rw [hdigit]; decide)]
    rw [htext, ← hn, List.cons_append, fraction, bind_of_eq hstart]
    simp only [if_true]
    rw [bind_of_eq hnext, bind_of_eq hdigits, bind_of_eq hskip, hlength, digitsValue_digits,
      Nat.mod_eq_of_lt hfits, hn]
    have hlow : 9 - width = low := by omega
    rw [hlow]
    change some (_, _) = _
    rw [Nat.pow_eq, Nat.div_mul_cancel hdvd]

end Parts

/-- A date and a clock with a fraction name the time that they are taken from. -/
private theorem ofParts?_eq {t : Instant} (h : t.Civil) :
    let date := dateOfDays (t.seconds / 86400)
    let second := t.secondOfDay
    ofParts? date.1 date.2.1 date.2.2 (second / 3600) (second / 60 % 60)
      (second % 60 + t.nanos / 1000000000) (t.nanos % 1000000000) 0 = some t := by
  obtain ⟨hmonth, hmonths, hday, hdays⟩ := dateOfDays_valid (t.seconds / 86400)
  have hback := daysOfDate_dateOfDays (t.seconds / 86400)
  have hzero := h.zero_le_year
  have hmost := h.year_le
  have hnanos := h.nanos_lt
  have hleap := h.leap
  dsimp only at hback ⊢
  obtain ⟨second, hsecond⟩ : ∃ second, second = t.secondOfDay := ⟨_, rfl⟩
  have hsplit : t.seconds = t.seconds / 86400 * 86400 + second := by
    rw [hsecond, secondOfDay]
    omega
  have hlong : second < 86400 := by
    rw [hsecond, secondOfDay]
    omega
  have hvalid : (yearInRange (dateOfDays (t.seconds / 86400)).1 &&
      1 ≤ (dateOfDays (t.seconds / 86400)).2.1 && (dateOfDays (t.seconds / 86400)).2.1 ≤ 12 &&
      1 ≤ (dateOfDays (t.seconds / 86400)).2.2 &&
      (dateOfDays (t.seconds / 86400)).2.2 ≤
        daysInMonth (dateOfDays (t.seconds / 86400)).1 (dateOfDays (t.seconds / 86400)).2.1 &&
      second / 3600 < 24 && second / 60 % 60 < 60 && second % 60 + t.nanos / 1000000000 ≤ 60 &&
      (0 : Int).natAbs < 86400) = true := by
    simp only [yearInRange, Bool.and_eq_true, decide_eq_true_eq]
    refine ⟨⟨⟨⟨⟨⟨⟨⟨⟨?_, ?_⟩, hmonth⟩, hmonths⟩, hday⟩, hdays⟩, ?_⟩, ?_⟩, ?_⟩, by decide⟩ <;> omega
  rw [← hsecond, ofParts?, if_pos hvalid, hback]
  -- A second numbered 60 is the leap second, which is counted with the second before it.
  obtain ⟨seconds, nanos⟩ := t
  dsimp only at hleap hnanos hsplit ⊢
  split
  · next hsixty =>
    rw [Option.some.injEq, Instant.mk.injEq]
    omega
  · next hother =>
    rw [Option.some.injEq, Instant.mk.injEq]
    omega

section Texts

variable {t : Instant}

/-- The parts of the text of a time, one behind another. -/
private theorem toList_textWith (h : t.Civil) (zone : String) :
    (t.textWith zone).toList =
      let date := dateOfDays (t.seconds / 86400)
      fields 4 '-' date.1.toNat date.2.1 date.2.2 ++ 'T' ::
        (fields 2 ':' (t.secondOfDay / 3600) (t.secondOfDay / 60 % 60)
          (t.secondOfDay % 60 + t.nanos / 1000000000) ++ (t.fractionText.toList ++ zone.toList)) := by
  have hmark : "T".toList = ['T'] := rfl
  simp only [textWith, String.toList_append, hmark, toList_dateText h, toList_clockText h,
    List.append_assoc, List.cons_append, List.nil_append]

/-- Each part of a time fits its width. -/
private theorem parts_lt (h : t.Civil) :
    let date := dateOfDays (t.seconds / 86400)
    (date.1.toNat < 10000 ∧ (date.1.toNat : Int) = date.1 ∧ date.2.1 < 100 ∧ date.2.2 < 100) ∧
      t.secondOfDay / 3600 < 100 ∧ t.secondOfDay / 60 % 60 < 100 ∧
        t.secondOfDay % 60 + t.nanos / 1000000000 < 100 := by
  obtain ⟨hmonth, hday⟩ := dateOfDays_fits (t.seconds / 86400)
  have hzero := h.zero_le_year
  have hmost := h.year_le
  have hnanos := h.nanos_lt
  have hlong : t.secondOfDay < 86400 := by
    rw [secondOfDay]
    omega
  dsimp only
  refine ⟨⟨?_, ?_, hmonth, hday⟩, ?_, ?_, ?_⟩ <;> omega

/-- A time is read from the text in which it is exchanged. -/
theorem ofText?_text (h : t.Civil) : ofText? t.text = some t := by
  obtain ⟨⟨hyears, hyear, hmonth, hday⟩, hhour, hminute, hsecond⟩ := parts_lt h
  have hzone : "Z".toList = ['Z'] := rfl
  have hread : lenient t.text.toList = some (t, []) := by
    rw [text, toList_textWith h, hzone]
    simp only [fields, List.append_assoc, List.cons_append]
    rw [lenient,
      bind_of_eq (lenientYear_digits hyears _), bind_of_eq (lenientMark_cons (by decide) _),
      bind_of_eq (lenientField_digits hmonth _), bind_of_eq (lenientMark_cons (by decide) _),
      bind_of_eq (lenientField_digits hday _), bind_of_eq (separator_cons _),
      bind_of_eq (lenientField_digits hhour _), bind_of_eq (lenientMark_cons (by decide) _),
      bind_of_eq (lenientField_digits hminute _), bind_of_eq (lenientMark_cons (by decide) _),
      bind_of_eq (lenientField_digits hsecond _),
      bind_of_eq (fraction_text t (by decide) rfl []),
      bind_of_eq (skipBlanks_cons (by decide) []), bind_of_eq lenientZone_zero,
      bind_of_eq skipBlanks_nil, hyear, ofParts?_eq h]
    rfl
  rw [ofText?, Scan.all, hread]

/-- A time is read from the text in which it is stored. -/
theorem ofStored?_storedText (h : t.Civil) : ofStored? t.storedText = some t := by
  obtain ⟨⟨hyears, hyear, hmonth, hday⟩, hhour, hminute, hsecond⟩ := parts_lt h
  have hzone : "+00:00".toList = ['+', '0', '0', ':', '0', '0'] := rfl
  have hoffset : zone (exactly ':') ['+', '0', '0', ':', '0', '0'] = some (0, []) := by
    rfl
  have hread : strict t.storedText.toList = some (t, []) := by
    rw [storedText, toList_textWith h, hzone]
    simp only [fields, List.append_assoc, List.cons_append]
    rw [strict,
      bind_of_eq (number_append (Nat.le_refl 4) hyears _), bind_of_eq (exactly_cons _ _),
      bind_of_eq (number_append (Nat.le_refl 2) hmonth _), bind_of_eq (exactly_cons _ _),
      bind_of_eq (number_append (Nat.le_refl 2) hday _), bind_of_eq (separator_cons _),
      bind_of_eq (number_append (Nat.le_refl 2) hhour _), bind_of_eq (exactly_cons _ _),
      bind_of_eq (number_append (Nat.le_refl 2) hminute _), bind_of_eq (exactly_cons _ _),
      bind_of_eq (number_append (Nat.le_refl 2) hsecond _),
      bind_of_eq (fraction_text t (by decide) rfl _), bind_of_eq hoffset, hyear, ofParts?_eq h]
    rfl
  rw [ofStored?, Scan.all, hread]

end Texts

end Instant

end Colloquy
