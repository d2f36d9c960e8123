/-!
# Percent encoding

In a location, a percent sign with two hexadecimal digits behind it stands for a byte; any other percent sign
stands for itself. In the parameters of a location a plus sign stands for a blank.
-/

namespace Colloquy.Text.Percent

/-- The value of a hexadecimal digit. -/
def hexValue? (b : UInt8) : Option UInt8 :=
  if 48 ≤ b && b ≤ 57 then some (b - 48)
  else if 65 ≤ b && b ≤ 70 then some (b - 55)
  else if 97 ≤ b && b ≤ 102 then some (b - 87)
  else none

/-- The bytes that bytes stand for. -/
def decodeBytes : List UInt8 → List UInt8
  | [] => []
  | b :: high :: low :: rest =>
    if b = 37 then
      match hexValue? high, hexValue? low with
      | some h, some l => (16 * h + l) :: decodeBytes rest
      | _, _ => b :: decodeBytes (high :: low :: rest)
    else b :: decodeBytes (high :: low :: rest)
  | b :: rest => b :: decodeBytes rest

/-- The text that a text stands for, if the bytes make one. -/
def decode? (s : String) : Option String :=
  String.fromUTF8? ⟨(decodeBytes s.toUTF8.toList).toArray⟩

/-- The text that a part of a parameter stands for, if the bytes make one. -/
def decodeForm? (s : String) : Option String :=
  decode? (s.map fun c => if c = '+' then ' ' else c)

end Colloquy.Text.Percent
