import Colloquy.Decimal.Binary

/-!
# Remainders of doubles

The remainder of a division whose quotient is cut to an integer. It is computed exactly, on integers
that count a common unit, and takes the sign of the dividend.
-/

namespace Colloquy.Decimal

/-- The remainder of two magnitudes, the divisor not being zero: a count of units `2^exponent`. -/
def Binary.remainder (x y : Binary) : Nat × Int :=
  let unit := min x.exponent y.exponent
  let count (b : Binary) : Nat := b.significand * Nat.pow 2 (b.exponent - unit).toNat
  (count x % count y, unit)

/-- The remainder of a division of doubles. There is none of an infinity or by zero; a finite double
is its own remainder by an infinity. -/
def remainder (x y : Float) : Float :=
  match Reading.ofFloat x, Reading.ofFloat y with
  | .finite negative dividend, .finite _ divisor =>
    if divisor.significand = 0 then 0 / 0
    else
      let (units, unit) := dividend.remainder divisor
      let magnitude := (Float.ofNat units).scaleB unit
      if negative then -magnitude else magnitude
  | .finite .., .infinite _ => x
  | _, _ => 0 / 0

end Colloquy.Decimal
