/-!
# Binary numbers

What the bit pattern of a floating-point number means: a sign and a number `significand · 2^exponent`,
or one of the values that are no number. The same reading serves both widths.
-/

namespace Colloquy.Decimal

/-- The number `significand · 2^exponent` of a floating-point format. -/
structure Binary where
  /-- The integer that is scaled. -/
  significand : Nat
  /-- The power of two that scales it. -/
  exponent : Int
  /-- Whether the next smaller number lies at half the distance of the next greater one, as it does
  below a power of two. -/
  narrowBelow : Bool
  deriving DecidableEq, Repr

/-- The meaning of a bit pattern. -/
inductive Reading where
  /-- No number. -/
  | nan
  /-- An infinity. -/
  | infinite (negative : Bool)
  /-- A finite number, the two zeros included. -/
  | finite (negative : Bool) (magnitude : Binary)
  deriving DecidableEq, Repr

/-- Reads a bit pattern whose last `fractionBits` bits hold the fraction, the `exponentBits` before
them the biased exponent, and the one before these the sign. -/
def Reading.ofBits (fractionBits exponentBits bits : Nat) : Reading :=
  let fraction := bits % Nat.pow 2 fractionBits
  let biased := bits / Nat.pow 2 fractionBits % Nat.pow 2 exponentBits
  let negative := bits / Nat.pow 2 (fractionBits + exponentBits) % 2 == 1
  let bias : Int := (Nat.pow 2 (exponentBits - 1) : Nat) - 1 + fractionBits
  if biased = Nat.pow 2 exponentBits - 1 then
    if fraction = 0 then .infinite negative else .nan
  else if biased = 0 then .finite negative ⟨fraction, 1 - bias, false⟩
  else .finite negative ⟨Nat.pow 2 fractionBits + fraction, biased - bias, fraction == 0 && 1 < biased⟩

-- One, and the least positive double.
example : Reading.ofBits 52 11 0x3FF0000000000000 = .finite false ⟨0x10000000000000, -52, true⟩ ∧
    Reading.ofBits 52 11 1 = .finite false ⟨1, -1074, false⟩ := by decide

/-- The meaning of a double. -/
def Reading.ofFloat (x : Float) : Reading :=
  .ofBits 52 11 x.toBits.toNat

/-- The meaning of a number of single precision. -/
def Reading.ofFloat32 (x : Float32) : Reading :=
  .ofBits 23 8 x.toBits.toNat

end Colloquy.Decimal
