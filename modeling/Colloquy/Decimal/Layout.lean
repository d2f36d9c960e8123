import Colloquy.Decimal.Shortest

/-!
# Layouts of decimals

How the shortest digits of a number are set down as text: with or without an exponent, with or
without a trailing point and zero. Each output format of the library is one `Layout`.
-/

namespace Colloquy.Decimal

/-- The decisions that turn digits into text. -/
structure Layout where
  /-- Whether a number with this exponent of its leading digit is written without an exponent. -/
  positional : Int → Bool
  /-- What follows an integer that is written without an exponent. -/
  integerEnd : String
  /-- What stands between the exponent mark and an exponent that is not negative. -/
  plus : String
  /-- Which of two equally near shortest decimals is taken. -/
  tie : Tie
  /-- The text for no number. -/
  nan : String
  /-- The text for an infinity, and for the negative one behind a minus sign. -/
  infinity : String

/-- Every number in full, integers bare. -/
def Layout.plain : Layout :=
  ⟨fun _ => true, "", "", .up, "NaN", "inf"⟩

/-- The digits of a natural number in base ten. -/
def digitsOf (n : Nat) : List Char :=
  Nat.toDigits 10 n

/-- The digits of `d` with the decimal point in its place. -/
def Scaled.positional (integerEnd : String) (d : Scaled) : List Char :=
  let ds := digitsOf d.digits
  if 0 ≤ d.exponent then ds ++ List.replicate d.exponent.toNat '0' ++ integerEnd.toList
  else
    let places := (-d.exponent).toNat
    if places < ds.length then
      ds.take (ds.length - places) ++ '.' :: ds.drop (ds.length - places)
    else '0' :: '.' :: List.replicate (places - ds.length) '0' ++ ds

/-- The digits of `d` with the point behind the first one and an exponent. -/
def Scaled.scientific (plus : String) (d : Scaled) (leading : Int) : List Char :=
  let mantissa := match digitsOf d.digits with
    | [] => []
    | [digit] => [digit]
    | digit :: rest => digit :: '.' :: rest
  let exponent := if leading < 0 then '-' :: digitsOf leading.natAbs
    else plus.toList ++ digitsOf leading.natAbs
  mantissa ++ 'e' :: exponent

/-- The text of a decimal in a layout. -/
def Layout.decimal (layout : Layout) (d : Scaled) : List Char :=
  let leading := d.exponent + digitCount d.digits - 1
  if layout.positional leading then d.positional layout.integerEnd
  else d.scientific layout.plus leading

/-- The text of what a bit pattern means in a layout. -/
def Layout.reading (layout : Layout) : Reading → List Char
  | .nan => layout.nan.toList
  | .infinite negative => (if negative then ['-'] else []) ++ layout.infinity.toList
  | .finite negative magnitude =>
    (if negative then ['-'] else []) ++
      layout.decimal (if magnitude.significand = 0 then ⟨0, 0⟩ else magnitude.shortest layout.tie)

/-- The text of a double. -/
def Layout.float (layout : Layout) (x : Float) : String :=
  String.ofList (layout.reading (.ofFloat x))

/-- The text of a number of single precision. -/
def Layout.float32 (layout : Layout) (x : Float32) : String :=
  String.ofList (layout.reading (.ofFloat32 x))

end Colloquy.Decimal
