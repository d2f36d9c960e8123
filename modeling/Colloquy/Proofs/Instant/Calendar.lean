import Colloquy.Proofs.Instant.StoredOrder

/-!
# The civil calendar

The date of a day is a date of the calendar, and the day of that date is the day again. Both are
shown for the year that begins in March, which has a 366th day only where the February at its end
belongs to a leap year.
-/

namespace Colloquy

namespace Instant

section Cycle

variable {d : Int}

/-- A year of a cycle has a 366th day only before the end of February in a leap year. -/
private theorem leap_of_dayOfYear (hd : 0 ≤ d) (he : d < 146097) (h : dayOfYear d = 365) :
    (yearOfCycle d + 1) % 4 = 0 ∧
      ((yearOfCycle d + 1) % 100 ≠ 0 ∨ (yearOfCycle d + 1) % 400 = 0) := by
  obtain ⟨year, hyear⟩ : ∃ year, year = yearOfCycle d := ⟨_, rfl⟩
  obtain ⟨hzero, hmost⟩ := yearOfCycle_bounds hd he
  rw [dayOfYear, ← hyear] at h
  rw [← hyear] at hzero hmost ⊢
  rw [yearOfCycle] at hyear
  have hfourth : (year + 1) % 4 = 0 := by
    refine Classical.byContradiction fun hother => ?_
    obtain ⟨q, r, rfl, hr, hr'⟩ : ∃ q r : Int, year = 4 * q + r ∧ 0 ≤ r ∧ r ≤ 2 :=
      ⟨year / 4, year % 4, by omega, by omega, by omega⟩
    have hquarter : (4 * q + r) / 4 = q := by omega
    have hleaps : d / 1460 = q := by omega
    have hcenturies : (4 * q + r) / 100 ≤ d / 36524 := by omega
    -- Only the last day of the cycle is left, which is the leap day of its last year.
    have hlast : d = 146096 := by omega
    subst hlast
    omega
  refine ⟨hfourth, Classical.byContradiction fun hother => ?_⟩
  have hcentury : year = 99 ∨ year = 199 ∨ year = 299 := by omega
  rcases hcentury with rfl | rfl | rfl <;> omega

end Cycle

section MarchYear

variable {year day : Int}

/-- A day of a year that begins in March is on a date of the calendar. -/
private theorem dateOfYear_valid (hzero : 0 ≤ day) (hmost : day ≤ 365)
    (hleap : day = 365 → isLeapYear (year + 1) = true) :
    let date := dateOfYear year day
    1 ≤ date.2.1 ∧ date.2.1 ≤ 12 ∧ 1 ≤ date.2.2 ∧ date.2.2 ≤ daysInMonth date.1 date.2.1 := by
  have hfebruary : day - 337 + 1 ≤ ((if isLeapYear (year + 1) then 29 else 28 : Nat) : Int) := by
    split
    · omega
    · next hother =>
      have hless : day ≠ 365 := fun h => hother (hleap h)
      omega
  obtain ⟨month, hmonth⟩ : ∃ month, month = (5 * day + 2) / 153 := ⟨_, rfl⟩
  have hcases : month = 0 ∨ month = 1 ∨ month = 2 ∨ month = 3 ∨ month = 4 ∨ month = 5 ∨
      month = 6 ∨ month = 7 ∨ month = 8 ∨ month = 9 ∨ month = 10 ∨ month = 11 := by
    omega
  simp only [dateOfYear, ← hmonth]
  rcases hcases with h | h | h | h | h | h | h | h | h | h | h | h <;> rw [h] <;>
    simp only [daysInMonth, Int.toNat_le, Int.cast_ofNat_Int, Int.reduceLT, Int.lt_irrefl,
      Int.reduceAdd, Int.zero_add, Int.reduceSub, Int.sub_zero, Int.reduceMul, Int.mul_zero,
      Int.mul_one, Int.reduceDiv, Int.reduceToNat, Int.toNat_one, Nat.reduceLeDiff, Std.le_refl,
      reduceIte, true_and] <;> omega

/-- The day of a date of a year that begins in March. -/
private theorem daysOfDate_dateOfYear (year : Int) (hzero : 0 ≤ day) (hmost : day ≤ 365) :
    let date := dateOfYear year day
    let yearOfCycle := year - year / 400 * 400
    daysOfDate date.1 date.2.1 date.2.2 =
      year / 400 * 146097 + (yearOfCycle * 365 + yearOfCycle / 4 - yearOfCycle / 100 + day) -
        719468 := by
  obtain ⟨month, hmonth⟩ : ∃ month, month = (5 * day + 2) / 153 := ⟨_, rfl⟩
  simp only [dateOfYear, daysOfDate, ← hmonth]
  have hday : ((day - (153 * month + 2) / 5 + 1).toNat : Int) =
      day - (153 * month + 2) / 5 + 1 := by
    omega
  rw [hday]
  by_cases hten : month < 10
  · have hlate : ¬ month + 3 ≤ 2 := by omega
    have hlate' : ¬ (month + 3).toNat ≤ 2 := by omega
    have hback : ((month + 3).toNat : Int) - 3 = month := by omega
    simp only [if_pos hten, if_neg hlate, if_neg hlate', hback, Int.add_zero]
    omega
  · have hearly : month - 9 ≤ 2 := by omega
    have hearly' : (month - 9).toNat ≤ 2 := by omega
    have hback : ((month - 9).toNat : Int) + 9 = month := by omega
    simp only [if_neg hten, if_pos hearly, if_pos hearly', hback, Int.add_sub_cancel]
    omega

end MarchYear

/-- The date of a day is a date of the calendar. -/
theorem dateOfDays_valid (days : Int) :
    let date := dateOfDays days
    1 ≤ date.2.1 ∧ date.2.1 ≤ 12 ∧ 1 ≤ date.2.2 ∧ date.2.2 ≤ daysInMonth date.1 date.2.1 := by
  rw [dateOfDays_eq]
  obtain ⟨cycle, hcycle⟩ : ∃ cycle, cycle = (days + 719468) / 146097 := ⟨_, rfl⟩
  obtain ⟨d, hd⟩ : ∃ d, d = days + 719468 - cycle * 146097 := ⟨_, rfl⟩
  simp only [← hcycle, ← hd]
  obtain ⟨hday, hmost⟩ := dayOfYear_bounds (d := d) (by omega) (by omega)
  refine dateOfYear_valid hday hmost fun hlast => ?_
  obtain ⟨hfourth, hcentury⟩ := leap_of_dayOfYear (d := d) (by omega) (by omega) hlast
  simp only [isLeapYear, Bool.and_eq_true, Bool.or_eq_true, beq_iff_eq, bne_iff_ne]
  omega

/-- The day of the date of a day is the day. -/
theorem daysOfDate_dateOfDays (days : Int) :
    let date := dateOfDays days
    daysOfDate date.1 date.2.1 date.2.2 = days := by
  rw [dateOfDays_eq]
  obtain ⟨cycle, hcycle⟩ : ∃ cycle, cycle = (days + 719468) / 146097 := ⟨_, rfl⟩
  obtain ⟨d, hd⟩ : ∃ d, d = days + 719468 - cycle * 146097 := ⟨_, rfl⟩
  simp only [← hcycle, ← hd]
  obtain ⟨hyear, hyears⟩ := yearOfCycle_bounds (d := d) (by omega) (by omega)
  obtain ⟨hday, hmost⟩ := dayOfYear_bounds (d := d) (by omega) (by omega)
  have hback := daysOfDate_dateOfYear (yearOfCycle d + cycle * 400) hday hmost
  dsimp only at hback
  have hcycles : (yearOfCycle d + cycle * 400) / 400 = cycle := by omega
  rw [hback, hcycles, Int.add_sub_cancel]
  rw [dayOfYear]
  omega

end Instant

end Colloquy
