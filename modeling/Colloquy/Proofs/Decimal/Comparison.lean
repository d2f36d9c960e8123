import Colloquy.Decimal.Binary
import Mathlib.Algebra.Order.Field.Power
import Mathlib.Algebra.Order.Field.Rat
import Mathlib.Order.Compare
import Mathlib.Tactic.Linarith
import Mathlib.Tactic.NormNum
import Mathlib.Tactic.Ring

/-!
# The order of numbers of single precision

Numbers of single precision are compared by their parts: by the sign, then by the exponent, then by
the significand. A bit pattern stands for a rational number, an infinity or no number, and the order
of the parts is the order of the rational numbers, because the significand of a number whose exponent
is not the least has all its bits.
-/

namespace Colloquy.Decimal

open Float.Model
open UnpackedFloat (Sign unpackMantissa unpackExponent unpackSign)

/-- The rational number `significand · 2^exponent`. -/
def Binary.value (x : Binary) : ℚ :=
  x.significand * 2 ^ x.exponent

/-- The rational number that is read, if it is one. -/
def Reading.value? : Reading → Option ℚ
  | .nan => none
  | .infinite _ => none
  | .finite negative magnitude => some (if negative then -magnitude.value else magnitude.value)

/-- The rational number that some parts make, if they make one. -/
def partsValue? : UnpackedFloat → Option ℚ
  | .infinity _ => none
  | .notANumber => none
  | .zero _ => some 0
  | .finite sign significand exponent _ => some (sign.apply significand * 2 ^ exponent)

private theorem partsValue?_zero {sign : Sign} : partsValue? (.zero sign) = some 0 :=
  rfl

private theorem partsValue?_finite {sign : Sign} {m : ℕ} {e : ℤ} {hm : 0 < m} :
    partsValue? (.finite sign m e hm) = some ((sign.apply m : ℚ) * 2 ^ e) :=
  rfl

/-- Parts as they are taken from 32 bits: a significand has at most 24 bits, and it has fewer only
under the least exponent. -/
def Aligned : UnpackedFloat → Prop
  | .finite _ significand exponent _ =>
    significand < 2 ^ 24 ∧ -149 ≤ exponent ∧ (2 ^ 23 ≤ significand ∨ exponent = -149)
  | _ => True

/-- A significand, an exponent and a sign make the number that they make in a reading. -/
private theorem finite_spec {sign : Sign} {negative narrow : Bool} {m m' : ℕ} {e e' : ℤ}
    (hpos : 0 < m) (hm : m = m') (he : e = e')
    (hsign : (sign.apply m' : ℚ) = if negative then -(m' : ℚ) else m')
    (haligned : m' < 2 ^ 24 ∧ -149 ≤ e' ∧ (2 ^ 23 ≤ m' ∨ e' = -149)) :
    Aligned (.finite sign m e hpos) ∧
      partsValue? (.finite sign m e hpos) = (Reading.finite negative ⟨m', e', narrow⟩).value? := by
  subst hm he
  refine ⟨haligned, ?_⟩
  rw [partsValue?_finite, Reading.value?, Binary.value, hsign]
  split
  · rw [neg_mul]
  · rfl

section Unpacking

variable (bits : BitVec 32)

private theorem toNat_unpackMantissa :
    (@unpackMantissa .binary32 bits).toNat = bits.toNat % 2 ^ 23 := by
  unfold unpackMantissa
  simp

private theorem toNat_unpackExponent :
    (@unpackExponent .binary32 bits).toNat = bits.toNat / 2 ^ 23 % 2 ^ 8 := by
  unfold unpackExponent
  simp [Nat.shiftRight_eq_div_pow]

private theorem apply_unpackSign (n : Nat) :
    ((Sign.ofBitVec (@unpackSign .binary32 bits)).apply n : ℚ) =
      if bits.toNat / 2 ^ 31 % 2 == 1 then -(n : ℚ) else n := by
  have hsign : (@unpackSign .binary32 bits).toNat = bits.toNat / 2 ^ 31 % 2 := by
    unfold unpackSign
    simp [Nat.shiftRight_eq_div_pow]
  have hzero : @unpackSign .binary32 bits = 0#1 ↔ bits.toNat / 2 ^ 31 % 2 = 0 := by
    rw [← BitVec.toNat_inj, hsign]
    rfl
  rw [Sign.ofBitVec]
  by_cases h : bits.toNat / 2 ^ 31 % 2 = 0
  · rw [if_pos (hzero.mpr h), if_neg (by rw [h]; decide)]
    simp [Sign.apply]
  · have hone : bits.toNat / 2 ^ 31 % 2 = 1 := by omega
    rw [if_neg (fun hbits => h (hzero.mp hbits)), if_pos (by rw [hone]; rfl)]
    simp [Sign.apply]

/-- The first bit of a significand is left out of the bits. -/
private theorem toNat_withFirstBit {n : Nat} (v : BitVec n) : (1#1 ++ v).toNat = 2 ^ n + v.toNat := by
  rw [BitVec.toNat_append, ← Nat.shiftLeft_add_eq_or_of_lt v.isLt]
  simp [Nat.shiftLeft_eq]

private theorem unpackMantissa_eq_zero_iff :
    @unpackMantissa .binary32 bits = 0#23 ↔ bits.toNat % 2 ^ 23 = 0 := by
  rw [← BitVec.toNat_inj, toNat_unpackMantissa]
  rfl

private theorem unpackExponent_eq_least_iff :
    @unpackExponent .binary32 bits = 0#8 ↔ bits.toNat / 2 ^ 23 % 2 ^ 8 = 0 := by
  rw [← BitVec.toNat_inj, toNat_unpackExponent]
  rfl

private theorem unpackExponent_eq_greatest_iff :
    @unpackExponent .binary32 bits = -1#8 ↔ bits.toNat / 2 ^ 23 % 2 ^ 8 = 2 ^ 8 - 1 := by
  rw [← BitVec.toNat_inj, toNat_unpackExponent]
  rfl

/-- The parts of 32 bits are aligned, and they make the number that is read from the bits. -/
private theorem unpack_spec : Aligned (UnpackedFloat.unpack .binary32 bits) ∧
    partsValue? (UnpackedFloat.unpack .binary32 bits) = (Reading.ofBits 23 8 bits.toNat).value? := by
  have hfraction := toNat_unpackMantissa bits
  have hbiased := toNat_unpackExponent bits
  have happly := apply_unpackSign bits
  have hzero := unpackMantissa_eq_zero_iff bits
  have hleast := unpackExponent_eq_least_iff bits
  have hgreatest := unpackExponent_eq_greatest_iff bits
  have hfirst : (1#1 ++ @unpackMantissa .binary32 bits).toNat = 2 ^ 23 + bits.toNat % 2 ^ 23 := by
    rw [toNat_withFirstBit, hfraction]
  have hbias : ((Format.exponentBias .binary32 : ℕ) : ℤ) + (23 : ℕ) = 150 := by decide
  simp only [Reading.ofBits, Nat.pow_eq]
  unfold UnpackedFloat.unpack
  extract_lets mantissa biased exponent sign
  have hexponent : exponent = (bits.toNat / 2 ^ 23 % 2 ^ 8 : ℕ) - 150 :=
    congrArg₂ (· - ·) (congrArg Nat.cast hbiased) hbias
  -- The greatest exponent stands for no number; under the least one, the first bit is not left out.
  by_cases hg : bits.toNat / 2 ^ 23 % 2 ^ 8 = 2 ^ 8 - 1
  · rw [if_pos (hgreatest.mpr hg), if_pos hg]
    split <;> split <;> exact ⟨trivial, rfl⟩
  rw [if_neg (mt hgreatest.mp hg), if_neg hg]
  by_cases hl : bits.toNat / 2 ^ 23 % 2 ^ 8 = 0
  · rw [if_pos (hleast.mpr hl), if_pos hl]
    by_cases hz : bits.toNat % 2 ^ 23 = 0
    · rw [dif_pos (hzero.mpr hz)]
      refine ⟨trivial, ?_⟩
      rw [partsValue?_zero, Reading.value?, Binary.value, hz]
      simp
    · rw [dif_neg (mt hzero.mp hz)]
      refine finite_spec _ hfraction ?_ (happly _) ?_
      · omega
      · omega
  · rw [if_neg (mt hleast.mp hl), if_neg hl]
    refine finite_spec _ hfirst ?_ (happly _) ?_
    · omega
    · omega

end Unpacking

section Order

variable {x y z : UnpackedFloat} {p q : ℚ}

/-- A number of a greater exponent is greater if its significand has all its bits. -/
private theorem mul_zpow_lt {m n : ℕ} {e f : ℤ} (hm : m < 2 ^ 24) (hn : 2 ^ 23 ≤ n) (h : e < f) :
    (m : ℚ) * 2 ^ e < n * 2 ^ f := by
  have hstep : e + 1 ≤ f := h
  calc (m : ℚ) * 2 ^ e < 2 ^ 24 * 2 ^ e := by
        gcongr
        exact_mod_cast hm
    _ = 2 ^ 23 * 2 ^ (e + 1) := by
        rw [zpow_add_one₀ two_ne_zero]
        ring
    _ ≤ n * 2 ^ f := by
        gcongr
        · exact_mod_cast hn
        · exact one_le_two

/-- Of aligned numbers the exponents are compared first, then the significands. -/
private theorem compare_then {s t : Sign} {m n : ℕ} {e f : ℤ} {hm : 0 < m} {hn : 0 < n}
    (hx : Aligned (.finite s m e hm)) (hy : Aligned (.finite t n f hn)) :
    (compare e f).then (compare m n) = compare ((m : ℚ) * 2 ^ e) (n * 2 ^ f) := by
  obtain ⟨hmlt, hleast, hmfull⟩ := hx
  obtain ⟨hnlt, hleast', hnfull⟩ := hy
  rcases lt_trichotomy e f with h | rfl | h
  · rw [compare_lt_iff_lt.mpr h, compare_lt_iff_lt.mpr (mul_zpow_lt hmlt (by omega) h)]
    rfl
  · rw [compare_eq_iff_eq.mpr rfl]
    have hpos : (0 : ℚ) < 2 ^ e := by positivity
    rcases lt_trichotomy m n with h | rfl | h
    · have hlt : (m : ℚ) * 2 ^ e < n * 2 ^ e := by gcongr
      rw [compare_lt_iff_lt.mpr h, compare_lt_iff_lt.mpr hlt]
      rfl
    · rw [compare_eq_iff_eq.mpr rfl, compare_eq_iff_eq.mpr rfl]
      rfl
    · have hlt : (n : ℚ) * 2 ^ e < m * 2 ^ e := by gcongr
      rw [compare_gt_iff_gt.mpr h, compare_gt_iff_gt.mpr hlt]
      rfl
  · rw [compare_gt_iff_gt.mpr h, compare_gt_iff_gt.mpr (mul_zpow_lt hnlt (by omega) h)]
    rfl

private theorem compare_neg_neg (p q : ℚ) : compare (-p) (-q) = (compare p q).swap := by
  rcases lt_trichotomy p q with h | rfl | h
  · rw [compare_lt_iff_lt.mpr h, compare_gt_iff_gt.mpr (neg_lt_neg h)]
    rfl
  · rw [compare_eq_iff_eq.mpr rfl, compare_eq_iff_eq.mpr rfl]
    rfl
  · rw [compare_gt_iff_gt.mpr h, compare_lt_iff_lt.mpr (neg_lt_neg h)]
    rfl

private theorem partsValue?_positive {m : ℕ} {e : ℤ} {hm : 0 < m} :
    partsValue? (.finite .positive m e hm) = some ((m : ℚ) * 2 ^ e) := by
  rw [partsValue?_finite, Sign.apply, Int.cast_natCast]

private theorem partsValue?_negative {m : ℕ} {e : ℤ} {hm : 0 < m} :
    partsValue? (.finite .negative m e hm) = some (-((m : ℚ) * 2 ^ e)) := by
  rw [partsValue?_finite, Sign.apply, Int.cast_neg, Int.cast_natCast, neg_mul]

private theorem mul_zpow_pos {m : ℕ} (hm : 0 < m) (e : ℤ) : (0 : ℚ) < m * 2 ^ e := by
  positivity

section Finite

variable {s t : Sign} {m n : ℕ} {e f : ℤ} {hm : 0 < m} {hn : 0 < n}

private theorem compare_zero_finite (hq : partsValue? (.finite t n f hn) = some q) :
    (UnpackedFloat.zero s).compare (.finite t n f hn) = some (compare 0 q) := by
  have hpos := mul_zpow_pos hn f
  cases t with
  | negative =>
    obtain rfl := Option.some.inj (partsValue?_negative.symm.trans hq)
    exact congrArg some (compare_gt_iff_gt.mpr (neg_lt_zero.mpr hpos)).symm
  | positive =>
    obtain rfl := Option.some.inj (partsValue?_positive.symm.trans hq)
    exact congrArg some (compare_lt_iff_lt.mpr hpos).symm

private theorem compare_finite_zero (hp : partsValue? (.finite s m e hm) = some p) :
    (UnpackedFloat.finite s m e hm).compare (.zero t) = some (compare p 0) := by
  have hpos := mul_zpow_pos hm e
  cases s with
  | negative =>
    obtain rfl := Option.some.inj (partsValue?_negative.symm.trans hp)
    exact congrArg some (compare_lt_iff_lt.mpr (neg_lt_zero.mpr hpos)).symm
  | positive =>
    obtain rfl := Option.some.inj (partsValue?_positive.symm.trans hp)
    exact congrArg some (compare_gt_iff_gt.mpr hpos).symm

private theorem compare_finite (hx : Aligned (.finite s m e hm)) (hy : Aligned (.finite t n f hn))
    (hp : partsValue? (.finite s m e hm) = some p) (hq : partsValue? (.finite t n f hn) = some q) :
    (UnpackedFloat.finite s m e hm).compare (.finite t n f hn) = some (compare p q) := by
  have hthen := compare_then hx hy
  have hpos := mul_zpow_pos hm e
  have hpos' := mul_zpow_pos hn f
  cases s with
  | negative =>
    obtain rfl := Option.some.inj (partsValue?_negative.symm.trans hp)
    cases t with
    | negative =>
      obtain rfl := Option.some.inj (partsValue?_negative.symm.trans hq)
      rw [compare_neg_neg, ← hthen]
      rfl
    | positive =>
      obtain rfl := Option.some.inj (partsValue?_positive.symm.trans hq)
      have hlt : -((m : ℚ) * 2 ^ e) < n * 2 ^ f := by linarith
      exact congrArg some (compare_lt_iff_lt.mpr hlt).symm
  | positive =>
    obtain rfl := Option.some.inj (partsValue?_positive.symm.trans hp)
    cases t with
    | negative =>
      obtain rfl := Option.some.inj (partsValue?_negative.symm.trans hq)
      have hlt : -((n : ℚ) * 2 ^ f) < m * 2 ^ e := by linarith
      exact congrArg some (compare_gt_iff_gt.mpr hlt).symm
    | positive =>
      obtain rfl := Option.some.inj (partsValue?_positive.symm.trans hq)
      exact congrArg some hthen

end Finite

/-- Aligned parts are compared as the numbers that they make. -/
private theorem compare_parts (hx : Aligned x) (hy : Aligned y) (hp : partsValue? x = some p)
    (hq : partsValue? y = some q) : x.compare y = some (compare p q) := by
  cases x with
  | infinity s => cases hp
  | notANumber => cases hp
  | zero s =>
    obtain rfl : 0 = p := Option.some.inj hp
    cases y with
    | infinity t => cases hq
    | notANumber => cases hq
    | zero t =>
      obtain rfl : 0 = q := Option.some.inj hq
      rfl
    | finite t n f hn => exact compare_zero_finite hq
  | finite s m e hm =>
    cases y with
    | infinity t => cases hq
    | notANumber => cases hq
    | zero t =>
      obtain rfl : 0 = q := Option.some.inj hq
      exact compare_finite_zero hp
    | finite t n f hn => exact compare_finite hx hy hp hq

/-- What is neither below one number nor above another is a number. -/
private theorem exists_value_of_between (hp : partsValue? x = some p) (hq : partsValue? z = some q)
    (hxy : x.le y = true) (hyz : y.le z = true) : ∃ r, partsValue? y = some r := by
  cases y with
  | infinity s =>
    cases s with
    | negative =>
      cases x with
      | infinity t => cases hp
      | notANumber => cases hp
      | zero t => exact absurd hxy Bool.false_ne_true
      | finite t m e hm => exact absurd hxy Bool.false_ne_true
    | positive =>
      cases z with
      | infinity t => cases hq
      | notANumber => cases hq
      | zero t => exact absurd hyz Bool.false_ne_true
      | finite t m e hm => exact absurd hyz Bool.false_ne_true
  | notANumber => exact absurd hyz Bool.false_ne_true
  | zero s => exact ⟨_, rfl⟩
  | finite s m e hm => exact ⟨_, rfl⟩

end Order

variable {x y z : Float32} {p q : ℚ}

private theorem value?_ofFloat32 (x : Float32) :
    (Reading.ofFloat32 x).value? = partsValue? x.toModel.unpack :=
  (unpack_spec x.toBits.toBitVec).2.symm

/-- Two numbers of single precision are ordered as the rational numbers that they stand for. -/
theorem le_iff_value_le (hp : (Reading.ofFloat32 x).value? = some p)
    (hq : (Reading.ofFloat32 y).value? = some q) : x ≤ y ↔ p ≤ q := by
  rw [value?_ofFloat32] at hp hq
  have hcompare := compare_parts (unpack_spec _).1 (unpack_spec _).1 hp hq
  have hle : x ≤ y ↔ UnpackedFloat.le x.toModel.unpack y.toModel.unpack = true :=
    decide_eq_true_iff
  rw [hle, UnpackedFloat.le, Float32.Model.unpack, Float32.Model.unpack, hcompare]
  exact Ordering.isLE_iff_ne_gt.trans compare_le_iff_le

/-- A number of single precision that lies between two that stand for rational numbers stands for
one itself. -/
theorem exists_value?_of_between (hp : (Reading.ofFloat32 x).value? = some p)
    (hq : (Reading.ofFloat32 z).value? = some q) (hxy : x ≤ y) (hyz : y ≤ z) :
    ∃ r, (Reading.ofFloat32 y).value? = some r := by
  rw [value?_ofFloat32] at hp hq ⊢
  exact exists_value_of_between hp hq (decide_eq_true_iff.mp hxy) (decide_eq_true_iff.mp hyz)

end Colloquy.Decimal
