import Colloquy.Text.Scan

/-!
# Instants

Points in time, their place in the civil calendar, and the text forms in which they are stored and
exchanged. One reader is strict and serves stored texts; the other is lenient about blanks, the
number of digits and the zone, and serves texts from outside.
-/

namespace Colloquy

/-- A point in time. -/
structure Instant where
  /-- Whole seconds since the start of 1970, leap seconds not counted. -/
  seconds : Int
  /-- Nanoseconds into that second; from `10^9` on they belong to the leap second that follows. -/
  nanos : Nat
  deriving DecidableEq, Repr

namespace Instant

/-- The earlier of two instants by seconds and then by nanoseconds. -/
def before (a b : Instant) : Bool :=
  a.seconds < b.seconds || (a.seconds == b.seconds && a.nanos < b.nanos)

theorem before_iff {a b : Instant} :
    a.before b = true ↔ a.seconds < b.seconds ∨ a.seconds = b.seconds ∧ a.nanos < b.nanos := by
  simp [before]

/-- A leap year has a day more: every fourth one, save three in four centuries. -/
def isLeapYear (year : Int) : Bool :=
  year % 4 == 0 && (year % 100 != 0 || year % 400 == 0)

/-- How many days a month has; zero for a number that names no month. -/
def daysInMonth (year : Int) (month : Nat) : Nat :=
  match month with
  | 1 | 3 | 5 | 7 | 8 | 10 | 12 => 31
  | 4 | 6 | 9 | 11 => 30
  | 2 => if isLeapYear year then 29 else 28
  | _ => 0

/-- Days from the start of 1970 to a date. The year is taken to begin in March, so that the leap day
is its last one, and years are counted in cycles of four hundred. -/
def daysOfDate (year : Int) (month day : Nat) : Int :=
  let shifted := if month ≤ 2 then year - 1 else year
  let cycle := shifted / 400
  let yearOfCycle := shifted - cycle * 400
  let monthFromMarch : Int := if month ≤ 2 then month + 9 else month - 3
  let dayOfYear := (153 * monthFromMarch + 2) / 5 + day - 1
  let dayOfCycle := yearOfCycle * 365 + yearOfCycle / 4 - yearOfCycle / 100 + dayOfYear
  cycle * 146097 + dayOfCycle - 719468

/-- The date that lies some days after the start of 1970. -/
def dateOfDays (days : Int) : Int × Nat × Nat :=
  let shifted := days + 719468
  let cycle := shifted / 146097
  let dayOfCycle := shifted - cycle * 146097
  let yearOfCycle :=
    (dayOfCycle - dayOfCycle / 1460 + dayOfCycle / 36524 - dayOfCycle / 146096) / 365
  let dayOfYear := dayOfCycle - (365 * yearOfCycle + yearOfCycle / 4 - yearOfCycle / 100)
  let monthFromMarch := (5 * dayOfYear + 2) / 153
  let day := dayOfYear - (153 * monthFromMarch + 2) / 5 + 1
  let month := if monthFromMarch < 10 then monthFromMarch + 3 else monthFromMarch - 9
  let year := yearOfCycle + cycle * 400 + (if month ≤ 2 then 1 else 0)
  (year, month.toNat, day.toNat)

/-- The decimal digits of a number, filled up with zeros on the left to a width. -/
def padded (width n : Nat) : String :=
  let ds := Nat.toDigits 10 n
  String.ofList (List.replicate (width - ds.length) '0' ++ ds)

/-- A year has four digits; one outside 0 to 9999 carries its sign. -/
def yearText (year : Int) : String :=
  if 0 ≤ year && year ≤ 9999 then padded 4 year.toNat
  else (if year < 0 then "-" else "+") ++ padded 4 year.natAbs

/-- The date of an instant, such as `2024-01-02`. -/
def dateText (t : Instant) : String :=
  let (year, month, day) := dateOfDays (t.seconds / 86400)
  yearText year ++ "-" ++ padded 2 month ++ "-" ++ padded 2 day

/-- The time of day of an instant to the second, such as `03:04:05`; a leap second is number 60. -/
def clockText (t : Instant) : String :=
  let second := (t.seconds % 86400).toNat
  padded 2 (second / 3600) ++ ":" ++ padded 2 (second / 60 % 60) ++ ":" ++
    padded 2 (second % 60 + t.nanos / 1000000000)

/-- The fraction of a second in 0, 3, 6 or 9 digits, the fewest that are exact. -/
def fractionText (t : Instant) : String :=
  let nanos := t.nanos % 1000000000
  if nanos = 0 then ""
  else if nanos % 1000000 = 0 then "." ++ padded 3 (nanos / 1000000)
  else if nanos % 1000 = 0 then "." ++ padded 6 (nanos / 1000)
  else "." ++ padded 9 nanos

/-- The text of an instant, closed by a name of the zero zone. -/
def textWith (zone : String) (t : Instant) : String :=
  t.dateText ++ "T" ++ t.clockText ++ t.fractionText ++ zone

/-- The form in which instants are exchanged. -/
def text (t : Instant) : String :=
  t.textWith "Z"

/-- The form in which instants are stored. -/
def storedText (t : Instant) : String :=
  t.textWith "+00:00"

/-- The years that a date may have. -/
def yearInRange (year : Int) : Bool :=
  -262143 ≤ year && year ≤ 262142

/-- The instant that a date, a time of day and a zone name, if they name one. A second numbered 60 is
the leap second after the fifty-ninth. -/
def ofParts? (year : Int) (month day hour minute second nanos : Nat) (offset : Int) :
    Option Instant :=
  if yearInRange year && 1 ≤ month && month ≤ 12 && 1 ≤ day && day ≤ daysInMonth year month &&
      hour < 24 && minute < 60 && second ≤ 60 && offset.natAbs < 86400 then
    let (second, nanos) := if second = 60 then (59, nanos + 1000000000) else (second, nanos)
    some ⟨daysOfDate year month day * 86400 + (hour * 3600 + minute * 60 + second : Nat) - offset,
      nanos⟩
  else none

open Text Text.Scan

/-- The letter or blank between a date and a time of day. -/
def separator : Scan Unit := do
  let _ ← satisfying fun c => c == 'T' || c == 't' || c == ' '

/-- A fraction of a second, in nanoseconds: digits behind a point, those past the ninth without
effect. -/
def fraction : Scan Nat := do
  if ← startsWith (· == '.') then
    let _ ← next
    let ds ← digits 1 (some 9)
    skipWhile Char.isDigit
    pure (digitsValue ds * Nat.pow 10 (9 - ds.length))
  else pure 0

/-- A zone as seconds east of the zero zone: the letter Z, or a sign, two digits of hours, whatever
`between` skips, and two digits of minutes. -/
def zone (between : Scan Unit) : Scan Int := do
  if ← startsWith (fun c => c == 'Z' || c == 'z') then
    let _ ← next
    pure 0
  else
    let sign ← satisfying fun c => c == '+' || c == '-' || c == Char.ofNat 0x2212
    let hours ← number 2 (some 2)
    between
    let minutes ← number 2 (some 2)
    if minutes < 60 then
      let east : Int := hours * 3600 + minutes * 60
      pure (if sign == '+' then east else -east)
    else failure

/-- A date and a time of day with a zone, each part in its full width. -/
def strict : Scan Instant := do
  let year ← number 4 (some 4)
  exactly '-'
  let month ← number 2 (some 2)
  exactly '-'
  let day ← number 2 (some 2)
  separator
  let hour ← number 2 (some 2)
  exactly ':'
  let minute ← number 2 (some 2)
  exactly ':'
  let second ← number 2 (some 2)
  let nanos ← fraction
  let offset ← zone (exactly ':')
  (ofParts? year month day hour minute second nanos offset : Option Instant)

/-- A year with an optional sign, behind which it may have any number of digits. -/
def lenientYear : Scan Int := do
  skipBlanks
  if ← startsWith (· == '-') then
    let _ ← next
    return -(← number 1 none : Nat)
  else if ← startsWith (· == '+') then
    let _ ← next
    return (← number 1 none : Nat)
  else return (← number 1 (some 4) : Nat)

/-- One or two digits behind any blanks. -/
def lenientField : Scan Nat := do
  skipBlanks
  number 1 (some 2)

/-- One given character behind any blanks. -/
def lenientMark (c : Char) : Scan Unit := do
  skipBlanks
  exactly c

/-- A zone, or the name of the zero zone. -/
def lenientZone : Scan Int := do
  let cs ← get
  if (cs.take 3).map Char.toUpper == ['U', 'T', 'C'] then
    set (cs.drop 3)
    pure 0
  else zone (skipWhile fun c => c == ':' || isBlank c)

/-- A date and a time of day with a zone, in which blanks and short numbers do no harm. -/
def lenient : Scan Instant := do
  let year ← lenientYear
  lenientMark '-'
  let month ← lenientField
  lenientMark '-'
  let day ← lenientField
  separator
  let hour ← lenientField
  lenientMark ':'
  let minute ← lenientField
  lenientMark ':'
  let second ← lenientField
  let nanos ← fraction
  skipBlanks
  let offset ← lenientZone
  skipBlanks
  (ofParts? year month day hour minute second nanos offset : Option Instant)

/-- Reads a stored instant: every part has its full width, only the zone may vary. -/
def ofStored? (s : String) : Option Instant :=
  strict.all s

/-- Reads an instant that comes from outside. -/
def ofText? (s : String) : Option Instant :=
  lenient.all s

end Instant

end Colloquy
