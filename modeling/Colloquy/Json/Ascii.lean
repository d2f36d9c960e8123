import Colloquy.Json.Printer
import Colloquy.Text.Quoted

/-!
# JSON in ASCII

The text of a value with every character beyond ASCII written as the escapes of its units of sixteen bits.
-/

namespace Colloquy.Json

/-- A unit of sixteen bits as an escape. -/
def escapeUnit (n : Nat) : List Char :=
  let digits := Text.hexDigits n
  ['\\', 'u'] ++ List.replicate (4 - digits.length) '0' ++ digits

/-- A character of a JSON text in ASCII. -/
def asciiChar (c : Char) : List Char :=
  if c.toNat < 0x80 then [c]
  else if c.toNat < 0x10000 then escapeUnit c.toNat
  else
    let n := c.toNat - 0x10000
    escapeUnit (0xD800 + n / 0x400) ++ escapeUnit (0xDC00 + n % 0x400)

/-- The compact text of a value in ASCII. -/
def printAscii (v : Json) : String :=
  String.ofList (v.chars.flatMap asciiChar)

end Colloquy.Json
