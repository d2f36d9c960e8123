/-!
# Random names

A name made of sixteen random bytes, with the marks of the fourth version in the seventh and the ninth byte.
-/

namespace Colloquy.Text.Uuid

/-- Two hexadecimal digits. -/
def byteText (b : UInt8) : List Char :=
  [Nat.digitChar (b.toNat / 16), Nat.digitChar (b.toNat % 16)]

/-- The bytes with the marks of the version and the variant. -/
def marked (bytes : List UInt8) : List UInt8 :=
  (bytes.modify 6 fun b => (b &&& 0x0F) ||| 0x40).modify 8 fun b => (b &&& 0x3F) ||| 0x80

/-- The groups of the digits. -/
def groups (digits : List Char) : List (List Char) :=
  [digits.take 8, (digits.drop 8).take 4, (digits.drop 12).take 4, (digits.drop 16).take 4,
    digits.drop 20]

/-- The name of random bytes. -/
def ofBytes (bytes : List UInt8) : String :=
  "-".intercalate ((groups ((marked bytes).flatMap byteText)).map String.ofList)

end Colloquy.Text.Uuid
