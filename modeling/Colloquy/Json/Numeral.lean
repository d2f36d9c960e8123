import Colloquy.Datum
import Colloquy.Text.Scan
import Colloquy.Word

/-!
# Numerals of JSON

How the digits of a numeral become a number. A numeral without fraction and exponent is an integer
as long as 64 bits hold it. Every other one is a double: its leading digits, as many as fit into 64
bits, are rounded to a double, which is then scaled once by a rounded power of ten. The result may
differ in its last place from the double nearest to the numeral.
-/

namespace Colloquy.Json

/-- The greatest number of 64 bits. -/
def maxWord : Nat :=
  Word.count 64 - 1

/-- The greatest power of ten among the doubles. -/
def maxPower : Nat :=
  308

/-- A power of ten as a double. -/
def powerOfTen (k : Nat) : Float :=
  Float.ofScientific 1 false k

/-- A double scaled down by a power of ten, in steps that are themselves doubles; two steps take
every 64-bit number to zero. -/
def scaleDown : (steps : Nat) → Float → Nat → Float
  | 0, x, k => x / powerOfTen (min k maxPower)
  | steps + 1, x, k =>
    if k ≤ maxPower then x / powerOfTen k
    else scaleDown steps (x / powerOfTen maxPower) (k - maxPower)

/-- The magnitude `significand · 10^exponent` as a double, unless it is beyond all doubles. -/
def scaled? (significand : Nat) (exponent : Int) : Option Float :=
  let x := Float.ofNat significand
  if significand = 0 then some x
  else if exponent < 0 then some (scaleDown 2 x exponent.natAbs)
  else if exponent ≤ maxPower then
    let y := x * powerOfTen exponent.toNat
    if y.isInf then none else some y
  else none

/-- The significand `n` with more digits behind it, as many as fit into 64 bits, and how many of the
digits are in it. -/
def extend (n : Nat) : List Char → Nat × Nat
  | [] => (n, 0)
  | d :: ds =>
    let next := 10 * n + (d.toNat - '0'.toNat)
    if next ≤ maxWord then
      let (m, used) := extend next ds
      (m, used + 1)
    else (n, 0)

/-- A numeral taken apart. -/
structure Numeral where
  /-- Whether a minus sign stands in front. -/
  negative : Bool
  /-- The digits before the point. -/
  whole : List Char
  /-- The digits behind the point, if there is one. -/
  fraction : Option (List Char)
  /-- The exponent, if there is one. -/
  exponent : Option Int
  deriving DecidableEq, Repr

/-- The number that a numeral denotes. Digits before the point that no longer fit count as zeros,
digits behind it that no longer fit not at all. -/
def Numeral.datum (numeral : Numeral) : Datum :=
  let (significand, used) := extend 0 numeral.whole
  let dropped := numeral.whole.length - used
  let double (significand : Nat) (exponent : Int) : Datum :=
    match scaled? significand exponent with
    | none => .unreadable
    | some x => .float (if numeral.negative then -x else x)
  match numeral.fraction, numeral.exponent with
  | none, none =>
    if dropped ≠ 0 then double significand dropped
    else if !numeral.negative then .integer significand
    else if significand = 0 || Word.count 63 < significand then double significand 0
    else .integer (-significand)
  | none, some exponent => double significand (dropped + exponent)
  | some digits, exponent =>
    let (significand, places) := extend significand digits
    double significand (dropped - places + exponent.getD 0)

open Text Text.Scan

/-- The digits before the point: a zero alone, or a run that does not start with one. -/
def wholeDigits : Scan (List Char) := do
  let ds ← digits 1 none
  if ds.head? == some '0' && ds.length ≠ 1 then failure else pure ds

/-- The digits behind the point, if there is one. -/
def fractionDigits : Scan (Option (List Char)) := do
  if ← startsWith (· == '.') then
    let _ ← next
    some <$> digits 1 none
  else pure none

/-- The exponent, if there is one. -/
def signedExponent : Scan (Option Int) := do
  if ← startsWith (fun c => c == 'e' || c == 'E') then
    let _ ← next
    if ← startsWith (· == '-') then
      let _ ← next
      return some (-(← number 1 none : Nat))
    else if ← startsWith (· == '+') then
      let _ ← next
      return some (← number 1 none : Nat)
    else return some (← number 1 none : Nat)
  else pure none

/-- Reads a numeral from the front of a text. -/
def numeral : Scan Numeral := do
  let negative ← startsWith (· == '-')
  if negative then
    let _ ← next
  let whole ← wholeDigits
  let fraction ← fractionDigits
  let exponent ← signedExponent
  pure ⟨negative, whole, fraction, exponent⟩

end Colloquy.Json
