import Colloquy.Instant
import Mathlib.Algebra.Group.Nat.Defs

/-!
# The order of stored times

Stored times are compared as texts, character by character. In a text of four digits of years the
parts of a time follow each other from the greatest to the least, each in a width of its own, so that
texts are ordered as the times are. Only the fraction has no fixed width: where one fraction ends, the
zone begins, and its sign comes before any digit and before the point.
-/

namespace Colloquy

namespace Text

/-- The first text has the lesser character at the first place where the two are told apart. -/
inductive Precedes : List Char → List Char → Prop where
  /-- They are told apart at once. -/
  | here {c d : Char} (h : c < d) (cs ds : List Char) : Precedes (c :: cs) (d :: ds)
  /-- They are told apart behind a common character. -/
  | there (c : Char) {cs ds : List Char} (h : Precedes cs ds) : Precedes (c :: cs) (c :: ds)

namespace Precedes

variable {cs ds : List Char}

theorem lt (h : Precedes cs ds) : cs < ds := by
  induction h with
  | here h cs ds => exact List.cons_lt_cons_iff.mpr (.inl h)
  | there c _ ih => exact List.cons_lt_cons_iff.mpr (.inr ⟨rfl, ih⟩)

/-- What comes behind the place where they are told apart does not matter. -/
theorem append_right (h : Precedes cs ds) (cs' ds' : List Char) :
    Precedes (cs ++ cs') (ds ++ ds') := by
  induction h with
  | here h cs ds => exact .here h _ _
  | there c _ ih => exact .there c ih

theorem append_left (shared : List Char) (h : Precedes cs ds) :
    Precedes (shared ++ cs) (shared ++ ds) := by
  induction shared with
  | nil => exact h
  | cons c shared ih => exact .there c ih

end Precedes

end Text

open Text (Precedes)

namespace Instant

section Digits

/-- The last decimal digits of a number, as many as a width has places. -/
def digits : Nat → Nat → List Char
  | 0, _ => []
  | width + 1, n => digits width (n / 10) ++ [Nat.digitChar (n % 10)]

private theorem digits_zero (width : Nat) : digits width 0 = List.replicate width '0' := by
  induction width with
  | zero => rfl
  | succ width ih =>
    rw [digits, ih, List.replicate_succ']
    rfl

private theorem toDigits_eq {n : Nat} (h : 10 ≤ n) :
    Nat.toDigits 10 n = Nat.toDigits 10 (n / 10) ++ [Nat.digitChar (n % 10)] := by
  have hrest : 0 < n / 10 := by omega
  have hlast : n % 10 < 10 := Nat.mod_lt n (by decide)
  have hn : 10 * (n / 10) + n % 10 = n := Nat.div_add_mod n 10
  rw [← Nat.toDigits_of_lt_base hlast, Nat.toDigits_append_toDigits (by decide) hrest hlast, hn]

/-- A number that fits its width is written in just this width. -/
theorem toList_padded {width n : Nat} (hwidth : 0 < width) (h : n < 10 ^ width) :
    (padded width n).toList = digits width n := by
  rw [padded, String.toList_ofList]
  induction width generalizing n with
  | zero => exact absurd hwidth (Nat.lt_irrefl 0)
  | succ width ih =>
    rw [digits]
    by_cases hsmall : n < 10
    · rw [Nat.toDigits_of_lt_base hsmall, Nat.div_eq_of_lt hsmall, Nat.mod_eq_of_lt hsmall,
        digits_zero, List.length_singleton, Nat.add_sub_cancel]
    · have hpos : 0 < width := by
        refine Nat.pos_of_ne_zero fun hzero => ?_
        rw [hzero] at h
        omega
      have hrest : n / 10 < 10 ^ width := by
        rw [Nat.pow_succ] at h
        omega
      rw [toDigits_eq (by omega), List.length_append, List.length_singleton, Nat.add_sub_add_right,
        ← List.append_assoc, ih hpos hrest]

private theorem digitChar_lt {d e : Nat} (h : d < e) (he : e < 10) :
    Nat.digitChar d < Nat.digitChar e := by
  have hall : ∀ e < 10, ∀ d < e, Nat.digitChar d < Nat.digitChar e := by decide
  exact hall e he d h

/-- Digits of one width are ordered as the numbers are. -/
theorem precedes_digits {width n m : Nat} (h : n < m) (hm : m < 10 ^ width) :
    Precedes (digits width n) (digits width m) := by
  induction width generalizing n m with
  | zero => omega
  | succ width ih =>
    rw [digits, digits]
    by_cases hrest : n / 10 < m / 10
    · have hm' : m / 10 < 10 ^ width := by
        rw [Nat.pow_succ] at hm
        omega
      exact (ih hrest hm').append_right _ _
    · have hsame : n / 10 = m / 10 := by omega
      have hlast : n % 10 < m % 10 := by omega
      rw [hsame]
      exact .append_left _ (.here (digitChar_lt hlast (Nat.mod_lt m (by decide))) _ _)

/-- The digits of a number, parted at any place. -/
theorem digits_add (width low n : Nat) :
    digits (width + low) n = digits width (n / 10 ^ low) ++ digits low (n % 10 ^ low) := by
  induction low generalizing n with
  | zero => simp [digits]
  | succ low ih =>
    have hhigh : n / 10 / 10 ^ low = n / 10 ^ (low + 1) := by
      rw [Nat.div_div_eq_div_mul, Nat.pow_succ']
    have hmiddle : n / 10 % 10 ^ low = n % 10 ^ (low + 1) / 10 := by
      rw [Nat.pow_succ', Nat.mod_mul_right_div_self]
    have hlast : n % 10 = n % 10 ^ (low + 1) % 10 := by
      rw [Nat.pow_succ', Nat.mod_mul_right_mod]
    rw [← Nat.add_assoc, digits, ih, digits, List.append_assoc, hhigh, hmiddle, ← hlast]

/-- The sign of a zone comes before any digits. -/
private theorem plus_precedes_digits {width : Nat} (hwidth : 0 < width) (n : Nat)
    (cs ds : List Char) : Precedes ('+' :: cs) (digits width n ++ ds) := by
  obtain ⟨low, rfl⟩ : ∃ low, width = 1 + low := ⟨width - 1, by omega⟩
  have hall : ∀ d < 10, '+' < Nat.digitChar d := by decide
  rw [digits_add, List.append_assoc]
  exact .here (hall _ (Nat.mod_lt _ (by decide))) _ _

/-- Digits behind a point, of which some noughts at the end are left out, in front of a zone. -/
private theorem precedes_shortened {width low width' low' n m : Nat}
    (hsame : width + low = width' + low') (hn : 10 ^ low ∣ n) (hm : 10 ^ low' ∣ m) (h : n < m)
    (hbound : m < 10 ^ (width' + low')) (cs ds : List Char) :
    Precedes (digits width (n / 10 ^ low) ++ '+' :: cs)
      (digits width' (m / 10 ^ low') ++ '+' :: ds) := by
  by_cases hle : width ≤ width'
  · -- The second has at least as many digits.
    obtain ⟨more, rfl⟩ : ∃ more, width' = width + more := ⟨width' - width, by omega⟩
    obtain rfl : low = low' + more := by omega
    have hshared : m / 10 ^ low' / 10 ^ more = m / 10 ^ (low' + more) := by
      rw [Nat.div_div_eq_div_mul, Nat.pow_add]
    rw [digits_add, hshared, List.append_assoc]
    obtain hlt | heq := Nat.lt_or_eq_of_le
      (Nat.div_le_div_right (Nat.le_of_lt h) (c := 10 ^ (low' + more)))
    · have hfits : m / 10 ^ (low' + more) < 10 ^ width := by
        rw [Nat.div_lt_iff_lt_mul (Nat.pow_pos (by decide)), ← Nat.pow_add]
        rwa [← hsame] at hbound
      exact (precedes_digits hlt hfits).append_right _ _
    · rw [heq]
      refine .append_left _ ?_
      have hmore : 0 < more := by
        refine Nat.pos_of_ne_zero fun hzero => ?_
        subst hzero
        have hnm : n = m := (Nat.div_left_inj hn hm).mp heq
        omega
      exact plus_precedes_digits hmore _ _ _
  · -- The second has fewer digits, and is greater in these.
    obtain ⟨more, rfl⟩ : ∃ more, width = width' + more := ⟨width - width', by omega⟩
    obtain rfl : low' = low + more := by omega
    have hshared : n / 10 ^ low / 10 ^ more = n / 10 ^ (low + more) := by
      rw [Nat.div_div_eq_div_mul, Nat.pow_add]
    have hlt : n / 10 ^ (low + more) < m / 10 ^ (low + more) := Nat.div_lt_div_of_lt_of_dvd hm h
    have hfits : m / 10 ^ (low + more) < 10 ^ width' := by
      rw [Nat.div_lt_iff_lt_mul (Nat.pow_pos (by decide)), ← Nat.pow_add]
      exact hbound
    rw [digits_add, hshared, List.append_assoc]
    exact (precedes_digits hlt hfits).append_right _ _

end Digits

section Fields

/-- Three numbers, the second and the third of two digits, parted by a mark. -/
def fields (width : Nat) (mark : Char) (a b c : Nat) : List Char :=
  digits width a ++ mark :: (digits 2 b ++ mark :: digits 2 c)

private theorem precedes_fields {width : Nat} (mark : Char) {a b c a' b' c' : Nat}
    (ha : a' < 10 ^ width) (hb : b' < 100) (hc : c' < 100)
    (h : a < a' ∨ a = a' ∧ (b < b' ∨ b = b' ∧ c < c')) :
    Precedes (fields width mark a b c) (fields width mark a' b' c') := by
  obtain h | ⟨rfl, h | ⟨rfl, h⟩⟩ := h
  · exact (precedes_digits h ha).append_right _ _
  · exact .append_left _ (.there _ ((precedes_digits h hb).append_right _ _))
  · exact .append_left _ (.there _ (.append_left _ (.there _ (precedes_digits h hc))))

end Fields

section Calendar

/-- The year within a cycle of four hundred years, for a day of the cycle. -/
def yearOfCycle (d : Int) : Int :=
  (d - d / 1460 + d / 36524 - d / 146096) / 365

/-- The day within the year, which begins in March, for a day of the cycle. -/
def dayOfYear (d : Int) : Int :=
  d - (365 * yearOfCycle d + yearOfCycle d / 4 - yearOfCycle d / 100)

/-- The date of a day in a year that begins in March. -/
def dateOfYear (year day : Int) : Int × Nat × Nat :=
  let monthFromMarch := (5 * day + 2) / 153
  let month := if monthFromMarch < 10 then monthFromMarch + 3 else monthFromMarch - 9
  (year + (if month ≤ 2 then 1 else 0), month.toNat,
    (day - (153 * monthFromMarch + 2) / 5 + 1).toNat)

theorem dateOfDays_eq (days : Int) :
    dateOfDays days =
      let cycle := (days + 719468) / 146097
      let day := days + 719468 - cycle * 146097
      dateOfYear (yearOfCycle day + cycle * 400) (dayOfYear day) := rfl

variable {d e : Int}

theorem yearOfCycle_bounds (hd : 0 ≤ d) (he : d < 146097) :
    0 ≤ yearOfCycle d ∧ yearOfCycle d < 400 := by
  rw [yearOfCycle]
  omega

theorem dayOfYear_bounds (hd : 0 ≤ d) (he : d < 146097) :
    0 ≤ dayOfYear d ∧ dayOfYear d ≤ 365 := by
  obtain ⟨year, hyear⟩ : ∃ year, year = yearOfCycle d := ⟨_, rfl⟩
  rw [dayOfYear, ← hyear]
  rw [yearOfCycle] at hyear
  -- Leap days are not left out, and those that a century lacks are.
  have hleaps : year / 4 ≤ d / 1460 := by omega
  have hcentury : d / 36524 = 0 ∨ d / 36524 = 1 ∨ d / 36524 = 2 ∨ d / 36524 = 3 ∨
      d / 36524 = 4 := by
    omega
  have hcenturies : d / 36524 - d / 146096 ≤ year / 100 := by
    rcases hcentury with h | h | h | h | h <;> omega
  constructor
  · omega
  · omega

/-- A later day of a cycle is in a later year of it or later in the same year. -/
private theorem dayOfCycle_lt (hd : 0 ≤ d) (h : d < e) (he : e < 146097) :
    yearOfCycle d < yearOfCycle e ∨
      yearOfCycle d = yearOfCycle e ∧ dayOfYear d < dayOfYear e := by
  have hyear : yearOfCycle d ≤ yearOfCycle e := by
    rw [yearOfCycle, yearOfCycle]
    have hdays : d - d / 1460 + d / 36524 - d / 146096 ≤
        e - e / 1460 + e / 36524 - e / 146096 := by
      omega
    omega
  obtain hlt | hsame := Int.lt_or_eq_of_le hyear
  · exact .inl hlt
  · refine .inr ⟨hsame, ?_⟩
    rw [dayOfYear, dayOfYear, hsame]
    omega

/-- One date is before another by year, then by month, then by day. -/
private def Earlier (date date' : Int × Nat × Nat) : Prop :=
  date.1 < date'.1 ∨ date.1 = date'.1 ∧
    (date.2.1 < date'.2.1 ∨ date.2.1 = date'.2.1 ∧ date.2.2 < date'.2.2)

/-- The year that begins in January is the next one from the tenth month on, and its months are the
lesser ones there. -/
private theorem dateOfYear_earlier {year day year' day' : Int} (hday : 0 ≤ day) (hmost : day ≤ 365)
    (hday' : 0 ≤ day') (hmost' : day' ≤ 365)
    (h : year < year' ∨ year = year' ∧ day < day') :
    Earlier (dateOfYear year day) (dateOfYear year' day') := by
  simp only [Earlier, dateOfYear]
  have hmonth : (5 * day + 2) / 153 ≤ 11 := by omega
  have hmonth' : (5 * day' + 2) / 153 ≤ 11 := by omega
  split <;> split <;> split <;> split <;> omega

/-- A later day has a later date. -/
private theorem dateOfDays_earlier {days days' : Int} (h : days < days') :
    Earlier (dateOfDays days) (dateOfDays days') := by
  rw [dateOfDays_eq, dateOfDays_eq]
  obtain ⟨cycle, hcycle⟩ : ∃ cycle, cycle = (days + 719468) / 146097 := ⟨_, rfl⟩
  obtain ⟨cycle', hcycle'⟩ : ∃ cycle, cycle = (days' + 719468) / 146097 := ⟨_, rfl⟩
  simp only [← hcycle, ← hcycle']
  obtain ⟨d, hd⟩ : ∃ d, d = days + 719468 - cycle * 146097 := ⟨_, rfl⟩
  obtain ⟨e, he⟩ : ∃ e, e = days' + 719468 - cycle' * 146097 := ⟨_, rfl⟩
  rw [← hd, ← he]
  have hyear := yearOfCycle_bounds (d := d) (by omega) (by omega)
  have hyear' := yearOfCycle_bounds (d := e) (by omega) (by omega)
  obtain ⟨hday, hmost⟩ := dayOfYear_bounds (d := d) (by omega) (by omega)
  obtain ⟨hday', hmost'⟩ := dayOfYear_bounds (d := e) (by omega) (by omega)
  refine dateOfYear_earlier hday hmost hday' hmost' ?_
  obtain hlt | rfl : cycle < cycle' ∨ cycle = cycle' := by omega
  · exact .inl (by omega)
  · have hlater := dayOfCycle_lt (d := d) (e := e) (by omega) (by omega) (by omega)
    omega

/-- A month has at most two digits, and so has a day. -/
theorem dateOfDays_fits (days : Int) :
    (dateOfDays days).2.1 < 100 ∧ (dateOfDays days).2.2 < 100 := by
  rw [dateOfDays_eq]
  obtain ⟨d, hd⟩ : ∃ d, d = days + 719468 - (days + 719468) / 146097 * 146097 := ⟨_, rfl⟩
  simp only [← hd, dateOfYear]
  obtain ⟨hday, hmost⟩ := dayOfYear_bounds (d := d) (by omega) (by omega)
  constructor
  · split <;> omega
  · omega

end Calendar

/-- A time in one of the years that have four digits, with a leap second only behind the last second
of a minute. -/
structure Civil (t : Instant) : Prop where
  /-- The year is not before the year 0. -/
  zero_le_year : 0 ≤ (dateOfDays (t.seconds / 86400)).1
  /-- The year is not behind the year 9999. -/
  year_le : (dateOfDays (t.seconds / 86400)).1 ≤ 9999
  /-- A second has one leap second at most. -/
  nanos_lt : t.nanos < 2000000000
  /-- A minute is closed by its leap second. -/
  leap : 1000000000 ≤ t.nanos → t.seconds % 60 = 59

/-- The times of the first day are in a year of four digits. -/
theorem civil_of_first_day {t : Instant} (hday : t.seconds / 86400 = 0)
    (hnanos : t.nanos < 1000000000) : t.Civil where
  zero_le_year := by
    rw [hday]
    decide
  year_le := by
    rw [hday]
    decide
  nanos_lt := by omega
  leap := by omega

section Parts

variable {t : Instant}

/-- The second of the day. -/
def secondOfDay (t : Instant) : Nat :=
  (t.seconds % 86400).toNat

theorem toList_dateText (h : t.Civil) :
    t.dateText.toList =
      let date := dateOfDays (t.seconds / 86400)
      fields 4 '-' date.1.toNat date.2.1 date.2.2 := by
  obtain ⟨hmonth, hday⟩ := dateOfDays_fits (t.seconds / 86400)
  have hzero := h.zero_le_year
  have hmost := h.year_le
  simp only [dateText]
  generalize dateOfDays (t.seconds / 86400) = date at hmonth hday hzero hmost ⊢
  obtain ⟨year, month, day⟩ := date
  have hyear : yearText year = padded 4 year.toNat := by
    rw [yearText, if_pos (by simpa using ⟨hzero, hmost⟩)]
  have hfits : year.toNat < 10 ^ 4 := by omega
  have hmonth : month < 10 ^ 2 := hmonth
  have hday : day < 10 ^ 2 := hday
  have hmark : "-".toList = ['-'] := rfl
  simp only [hyear, String.toList_append, hmark, fields, toList_padded (by decide) hfits,
    toList_padded (by decide) hmonth, toList_padded (by decide) hday, List.append_assoc,
    List.cons_append, List.nil_append]

theorem toList_clockText (h : t.Civil) :
    t.clockText.toList =
      let second := t.secondOfDay
      fields 2 ':' (second / 3600) (second / 60 % 60) (second % 60 + t.nanos / 1000000000) := by
  have hsecond : t.secondOfDay < 86400 := by
    rw [secondOfDay]
    omega
  have hnanos := h.nanos_lt
  have hhour : t.secondOfDay / 3600 < 10 ^ 2 := by omega
  have hminute : t.secondOfDay / 60 % 60 < 10 ^ 2 := by omega
  have hlast : t.secondOfDay % 60 + t.nanos / 1000000000 < 10 ^ 2 := by omega
  have hmark : ":".toList = [':'] := rfl
  rw [clockText, ← secondOfDay]
  simp only [String.toList_append, hmark, fields, toList_padded (by decide) hhour,
    toList_padded (by decide) hminute, toList_padded (by decide) hlast, List.append_assoc,
    List.cons_append, List.nil_append]

/-- A fraction has no digits, or it has as many that the ones left out are noughts. -/
theorem toList_fractionText (t : Instant) :
    t.nanos % 1000000000 = 0 ∧ t.fractionText.toList = [] ∨
      ∃ width low, 0 < width ∧ width + low = 9 ∧ 10 ^ low ∣ t.nanos % 1000000000 ∧
        t.fractionText.toList =
          '.' :: digits width (t.nanos % 1000000000 / 10 ^ low) := by
  have hnanos : t.nanos % 1000000000 < 10 ^ 9 := Nat.mod_lt _ (by decide)
  rw [fractionText]
  generalize t.nanos % 1000000000 = nanos at hnanos ⊢
  have hpoint : ".".toList = ['.'] := rfl
  split
  · next hzero => exact .inl ⟨hzero, rfl⟩
  · right
    split
    · next hmillis =>
      have hfits : nanos / 1000000 < 10 ^ 3 := by omega
      refine ⟨3, 6, by decide, rfl, Nat.dvd_of_mod_eq_zero hmillis, ?_⟩
      rw [String.toList_append, hpoint, toList_padded (by decide) hfits]
      rfl
    · split
      · next hmicros =>
        have hfits : nanos / 1000 < 10 ^ 6 := by omega
        refine ⟨6, 3, by decide, rfl, Nat.dvd_of_mod_eq_zero hmicros, ?_⟩
        rw [String.toList_append, hpoint, toList_padded (by decide) hfits]
        rfl
      · refine ⟨9, 0, by decide, rfl, Nat.one_dvd _, ?_⟩
        rw [String.toList_append, hpoint, toList_padded (by decide) hnanos, Nat.pow_zero,
          Nat.div_one]
        rfl

/-- A lesser fraction of the same second comes first, whatever widths the fractions have. -/
private theorem precedes_fractionText {a b : Instant}
    (h : a.nanos % 1000000000 < b.nanos % 1000000000) (cs ds : List Char) :
    Precedes (a.fractionText.toList ++ '+' :: cs) (b.fractionText.toList ++ '+' :: ds) := by
  have hbound : b.nanos % 1000000000 < 10 ^ 9 := Nat.mod_lt _ (by decide)
  obtain ⟨hnone, _⟩ | ⟨width', low', -, hsum', hdvd', htext'⟩ := toList_fractionText b
  · omega
  rw [htext', List.cons_append]
  obtain ⟨_, htext⟩ | ⟨width, low, -, hsum, hdvd, htext⟩ := toList_fractionText a
  · rw [htext, List.nil_append]
    exact .here (by decide) _ _
  · rw [htext, List.cons_append]
    refine .there _ (precedes_shortened (hsum.trans hsum'.symm) hdvd hdvd' h ?_ cs ds)
    rwa [hsum']

end Parts

private theorem toList_storedText (t : Instant) :
    t.storedText.toList =
      t.dateText.toList ++ 'T' :: (t.clockText.toList ++
        (t.fractionText.toList ++ '+' :: "00:00".toList)) := by
  have hmark : "T".toList = ['T'] := rfl
  have hzone : "+00:00".toList = '+' :: "00:00".toList := rfl
  simp only [storedText, textWith, String.toList_append, hmark, hzone, List.append_assoc,
    List.cons_append, List.nil_append]

/-- Of two times of a day the later has a greater clock, or the same clock and a greater fraction. -/
private theorem clock_lt {second second' nanos nanos' : Nat}
    (h : second < second' ∨ second = second' ∧ nanos < nanos')
    (hleap : 1000000000 ≤ nanos → second % 60 = 59) :
    (second / 3600 < second' / 3600 ∨ second / 3600 = second' / 3600 ∧
      (second / 60 % 60 < second' / 60 % 60 ∨ second / 60 % 60 = second' / 60 % 60 ∧
        second % 60 + nanos / 1000000000 < second' % 60 + nanos' / 1000000000)) ∨
      second = second' ∧ nanos / 1000000000 = nanos' / 1000000000 ∧
        nanos % 1000000000 < nanos' % 1000000000 := by
  obtain h | ⟨rfl, h⟩ := h
  · left
    by_cases hminute : second / 60 < second' / 60
    · omega
    · -- Within a minute only the last second may have a leap second.
      have hshort : nanos < 1000000000 := by
        refine Nat.lt_of_not_le fun hlong => ?_
        have hlast := hleap hlong
        omega
      omega
  · omega

/-- Stored times are ordered as the times are. -/
theorem storedText_lt {a b : Instant} (ha : a.Civil) (hb : b.Civil) (h : a.before b = true) :
    a.storedText < b.storedText := by
  rw [String.lt_iff, toList_storedText, toList_storedText]
  refine Precedes.lt ?_
  have hbefore := before_iff.mp h
  obtain hday | hday : a.seconds / 86400 < b.seconds / 86400 ∨
      a.seconds / 86400 = b.seconds / 86400 := by
    omega
  · -- The dates are told apart.
    have hearlier := dateOfDays_earlier hday
    have hyear := ha.zero_le_year
    have hyear' := hb.year_le
    obtain ⟨hmonth, hdayOfMonth⟩ := dateOfDays_fits (b.seconds / 86400)
    rw [toList_dateText ha, toList_dateText hb]
    refine (precedes_fields '-' ?_ hmonth hdayOfMonth ?_).append_right _ _
    · omega
    · rw [Earlier] at hearlier
      omega
  · have hsame : a.dateText = b.dateText := by rw [dateText, dateText, hday]
    rw [hsame]
    refine .append_left _ (.there _ ?_)
    have hclock : a.secondOfDay < b.secondOfDay ∨
        a.secondOfDay = b.secondOfDay ∧ a.nanos < b.nanos := by
      simp only [secondOfDay]
      omega
    have hleap : 1000000000 ≤ a.nanos → a.secondOfDay % 60 = 59 := by
      intro hnanos
      have hlast := ha.leap hnanos
      rw [secondOfDay]
      omega
    have hnanos := hb.nanos_lt
    have hlong : b.secondOfDay < 86400 := by
      rw [secondOfDay]
      omega
    obtain hclock | ⟨hsecond, hleapSecond, hfraction⟩ := clock_lt hclock hleap
    · -- The clocks are told apart.
      rw [toList_clockText ha, toList_clockText hb]
      refine (precedes_fields ':' ?_ ?_ ?_ hclock).append_right _ _
      · omega
      · omega
      · omega
    · -- Only the fractions are told apart.
      have hsame : a.clockText.toList = b.clockText.toList := by
        rw [toList_clockText ha, toList_clockText hb, hsecond, hleapSecond]
      rw [hsame]
      exact .append_left _ (precedes_fractionText hfraction _ _)

end Instant

end Colloquy
