import Colloquy.Decimal.Shortest

/-!
# The double nearest to a decimal

Reading a decimal as a double: the nearest one, and of two equally near ones the one with the even
significand. Decimals beyond the range of doubles are infinite or zero.
-/

namespace Colloquy.Decimal

/-- The double nearest to a decimal. The digits are scaled exactly only where the result can be
neither infinite nor zero for certain. -/
def Scaled.toFloat (d : Scaled) : Float :=
  let leading := d.exponent + digitCount d.digits
  if d.digits = 0 then 0
  else if leading < -400 then 0
  else if 400 < leading then 1 / 0
  else Float.ofScientific d.digits (d.exponent < 0) d.exponent.natAbs

end Colloquy.Decimal
