import Colloquy.Datum
import Colloquy.Decimal.Nearest
import Colloquy.Toml.Lexeme
import Colloquy.Word

/-!
# Numbers and times of TOML

Integers have 64 bits and may be written in base two, eight, ten or sixteen; floats are the doubles
nearest to what is written. Times stand for nothing but their own text in one normal form.
-/

namespace Colloquy.Toml

open Text Text.Scan

/-- Whether digits are grouped well: underscores stand only between two digits. -/
def wellGrouped (run : List Char) : Bool :=
  match run with
  | [] => false
  | '_' :: _ => false
  | [_] => true
  | _ :: '_' :: rest => wellGrouped rest
  | _ :: rest => wellGrouped rest

/-- A run of digits, grouped by underscores, without these. -/
def groupedDigits (isDigit : Char → Bool) : Scan (List Char) := do
  let cs ← get
  let run := cs.takeWhile fun c => isDigit c || c == '_'
  if wellGrouped run then
    set (cs.drop run.length)
    pure (run.filter (· ≠ '_'))
  else failure

/-- The digits before a point or at the end: a zero alone, or a run that does not start with one. -/
def wholeDigits : Scan (List Char) := do
  if ← startsWith (· == '0') then
    let _ ← next
    pure ['0']
  else groupedDigits Char.isDigit

/-- A plus or minus sign, if there is one; whether the number is negative. -/
def sign : Scan Bool := do
  if ← startsWith (· == '-') then
    let _ ← next
    pure true
  else
    if ← startsWith (· == '+') then
      let _ ← next
    pure false

/-- An integer that 64 bits with a sign hold. -/
def integer? (n : Int) : Option Datum :=
  if Word.isSigned64 n then some (.integer n) else none

/-- The number that digits denote in some base. -/
def digitsIn (base : Nat) (ds : List Char) : Nat :=
  ds.foldl (fun n d => base * n + (hexValue? d).getD 0) 0

/-- An integer in base two, eight or sixteen, behind the mark of its base. -/
def basedInteger (base : Nat) : Scan Datum := do
  let ds ← groupedDigits fun c => (hexValue? c).any (· < base)
  (integer? (digitsIn base ds) : Option Datum)

/-- A word that stands for a number that is none, or an infinity. -/
def specialFloat? (negative : Bool) : List Char → Option (Datum × List Char)
  | 'i' :: 'n' :: 'f' :: rest => some (.float (if negative then -(1 / 0) else 1 / 0), rest)
  | 'n' :: 'a' :: 'n' :: rest => some (.float (0 / 0), rest)
  | _ => none

/-- An integer in base ten, or a float. A float beyond the greatest double is refused, one below the
least is not. -/
def decimalNumber (negative : Bool) : Scan Datum := do
  let whole ← wholeDigits
  let fraction ← if ← startsWith (· == '.') then
      let _ ← next
      some <$> groupedDigits Char.isDigit
    else pure none
  let exponent ← if ← startsWith (fun c => c == 'e' || c == 'E') then
      let _ ← next
      let negative ← sign
      let n : Int := digitsValue (← groupedDigits Char.isDigit)
      pure (some (if negative then -n else n))
    else pure none
  match fraction, exponent with
  | none, none =>
    let n : Int := digitsValue whole
    (integer? (if negative then -n else n) : Option Datum)
  | fraction, exponent =>
    let places := fraction.getD []
    let x := Decimal.Scaled.toFloat ⟨digitsValue (whole ++ places), exponent.getD 0 - places.length⟩
    if negative then pure (.float (-x))
    else if x.isInf then failure
    else pure (.float x)

/-- A number. -/
def number : Scan Datum := do
  match ← get with
  | '0' :: 'x' :: rest => set rest; basedInteger 16
  | '0' :: 'o' :: rest => set rest; basedInteger 8
  | '0' :: 'b' :: rest => set rest; basedInteger 2
  | _ =>
    let negative ← sign
    match specialFloat? negative (← get) with
    | some (x, rest) => set rest; pure x
    | none => decimalNumber negative

/-- A number of two digits in a range. -/
def field (least most : Nat) : Scan Nat := do
  let n ← Scan.number 2 (some 2)
  if least ≤ n && n ≤ most then pure n else failure

/-- The digits of a number, filled up with zeros on the left to a width. -/
def padded (width n : Nat) : String :=
  let ds := Nat.toDigits 10 n
  String.ofList (List.replicate (width - ds.length) '0' ++ ds)

/-- The greatest day of a month. -/
def lastDay (year month : Nat) : Nat :=
  if month = 2 then
    if year % 4 = 0 && (year % 100 ≠ 0 || year % 400 = 0) then 29 else 28
  else if month = 4 || month = 6 || month = 9 || month = 11 then 30
  else 31

/-- A date in its normal form. -/
def date : Scan String := do
  let year ← Scan.number 4 (some 4)
  exactly '-'
  let month ← field 1 12
  exactly '-'
  let day ← field 1 31
  if day ≤ lastDay year month then
    pure (padded 4 year ++ "-" ++ padded 2 month ++ "-" ++ padded 2 day)
  else failure

/-- The fraction of a second in its normal form: at most nine places, and no zeros at the end. -/
def secondFraction : Scan String := do
  if ← startsWith (· == '.') then
    let _ ← next
    let ds ← digits 1 none
    let places := ((ds.take 9).reverse.dropWhile (· == '0')).reverse
    pure (if places.isEmpty then "" else String.ofList ('.' :: places))
  else pure ""

/-- A time of day in its normal form. -/
def clock : Scan String := do
  let hour ← field 0 23
  exactly ':'
  let minute ← field 0 59
  exactly ':'
  let second ← field 0 60
  let fraction ← secondFraction
  pure (padded 2 hour ++ ":" ++ padded 2 minute ++ ":" ++ padded 2 second ++ fraction)

/-- A zone in its normal form, if there is one. -/
def zone : Scan String := do
  if ← startsWith (fun c => c == 'Z' || c == 'z') then
    let _ ← next
    pure "Z"
  else if ← startsWith (fun c => c == '+' || c == '-') then
    let negative ← sign
    let hour ← field 0 23
    exactly ':'
    let minute ← field 0 59
    let mark := if negative && (hour ≠ 0 || minute ≠ 0) then "-" else "+"
    pure (mark ++ padded 2 hour ++ ":" ++ padded 2 minute)
  else pure ""

/-- Whether a text starts with digits and a mark behind them. -/
def startsWithField (width : Nat) (mark : Char) (cs : List Char) : Bool :=
  (cs.take width).all Char.isDigit && (cs.drop width).head? == some mark

/-- Whether a text starts with a date. -/
def startsWithDate (cs : List Char) : Bool :=
  startsWithField 4 '-' cs

/-- Whether a text starts with a time of day. -/
def startsWithClock (cs : List Char) : Bool :=
  startsWithField 2 ':' cs

/-- Whether a time of day follows a date: there is a separator, and a time behind it. -/
def clockFollows : List Char → Bool
  | c :: rest => (c == 'T' || c == 't' || c == ' ') && startsWithClock rest
  | [] => false

/-- A date, with or without a time of day, and that with or without a zone. -/
def dateTime : Scan String := do
  let day ← date
  if clockFollows (← get) then
    let _ ← next
    let time ← clock
    let zone ← zone
    pure (day ++ "T" ++ time ++ zone)
  else pure day

/-- A time as a tree: a record whose only member has a reserved name. -/
def timeDatum (s : String) : Datum :=
  .record [(some "$__toml_private_datetime", .text s)]

/-- A number or a time. -/
def numberOrTime : Scan Datum := do
  let cs ← get
  if startsWithDate cs then timeDatum <$> dateTime
  else if startsWithClock cs then timeDatum <$> clock
  else number

end Colloquy.Toml
