import Colloquy.Decimal.Binary

/-!
# Shortest decimals

The decimal with the fewest digits that reads back as a given binary number, and among those the
one nearest to it. For one digit, two digits and so on the two neighbours of the number on that
decimal grid are tried in exact integer arithmetic; the first grid with a hit gives the answer.
-/

namespace Colloquy.Decimal

/-- The decimal number `digits · 10^exponent`. -/
structure Scaled where
  /-- The integer that is scaled. -/
  digits : Nat
  /-- The power of ten that scales it. -/
  exponent : Int
  deriving DecidableEq, Repr

/-- Which of two equally near neighbours is taken. -/
inductive Tie where
  /-- The one whose last digit is even. -/
  | even
  /-- The greater one. -/
  | up
  deriving DecidableEq, Repr

/-- How many decimal digits a number has; zero has one. -/
def digitCount (n : Nat) : Nat :=
  (Nat.toDigits 10 n).length

/-- The exponent of the leading decimal digit of a positive binary number. -/
def Binary.leadingExponent (b : Binary) : Int :=
  let numerator := b.significand * Nat.pow 2 b.exponent.toNat
  let denominator := Nat.pow 2 (-b.exponent).toNat
  if denominator ≤ numerator then digitCount (numerator / denominator) - 1
  else -(digitCount ((denominator - 1) / numerator) : Int)

/-- The neighbour of a binary number on the grid of multiples of `10^k` that reads back as the
number: the nearer one if both do, by `tie` if they are equally near. Everything is measured in one
unit that makes a grid step `step`, a quarter of the gap above the number `quarter`, and the number
itself `4 · significand · quarter`. -/
def Binary.onGrid? (tie : Tie) (b : Binary) (k : Int) : Option Nat :=
  let step := Nat.pow 10 k.toNat * Nat.pow 2 (2 - b.exponent).toNat
  let quarter := Nat.pow 2 (b.exponent - 2).toNat * Nat.pow 10 (-k).toNat
  let value := 4 * b.significand * quarter
  let low := value - (if b.narrowBelow then 1 else 2) * quarter
  let high := value + 2 * quarter
  let inside := fun x => if b.significand % 2 = 0 then low ≤ x && x ≤ high else low < x && x < high
  let below := value / step
  let above := below + 1
  match inside (below * step), inside (above * step) with
  | true, true =>
    match compare (2 * (value - below * step)) step, tie with
    | .lt, _ => some below
    | .gt, _ => some above
    | .eq, .even => some (if below % 2 = 0 then below else above)
    | .eq, .up => some above
  | true, false => some below
  | false, true => some above
  | false, false => none

/-- Moves the trailing zeros of the digits into the exponent, as far as `fuel` allows. -/
def Scaled.strip : (fuel : Nat) → Scaled → Scaled
  | 0, d => d
  | fuel + 1, d =>
    if d.digits ≠ 0 ∧ d.digits % 10 = 0 then strip fuel ⟨d.digits / 10, d.exponent + 1⟩ else d

/-- The shortest decimal of a positive binary number; seventeen digits suffice for either width. -/
def Binary.shortest (tie : Tie) (b : Binary) : Scaled :=
  let leading := b.leadingExponent
  let hit := (List.range 17).findSome? fun (places : Nat) =>
    let k := leading - places
    (b.onGrid? tie k).map fun digits => Scaled.mk digits k
  (hit.getD ⟨0, 0⟩).strip 17

-- One tenth, and the least positive double, for which two decimals with one digit read back.
example : (Binary.mk 0x1999999999999A (-56) false).shortest .even = ⟨1, -1⟩ ∧
    (Binary.mk 1 (-1074) false).shortest .even = ⟨5, -324⟩ := by decide +kernel

-- Half way between two candidates the rule for ties decides.
example : (Binary.mk 4503599627370528 (-9) false).shortest .even = ⟨8796093022208062, -3⟩ ∧
    (Binary.mk 4503599627370528 (-9) false).shortest .up = ⟨8796093022208063, -3⟩ := by
  decide +kernel

end Colloquy.Decimal
