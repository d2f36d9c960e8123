import Colloquy.Text.Blank

/-!
# Scanning

A scan reads characters from the front of a text and hands on the rest, or fails. The scans here
are the ones that several notations share.
-/

namespace Colloquy.Text

/-- A reader of the front of a text: a value and the characters that are left, or nothing. -/
abbrev Scan := StateT (List Char) Option

namespace Scan

/-- The whole text, when the scan leaves nothing of it. -/
def all {α : Type} (scan : Scan α) (s : String) : Option α :=
  match scan s.toList with
  | some (a, []) => some a
  | _ => none

/-- The next character. -/
def next : Scan Char := do
  match ← get with
  | [] => failure
  | c :: rest => set rest; pure c

/-- The next character, which has to satisfy `p`. -/
def satisfying (p : Char → Bool) : Scan Char := do
  let c ← next
  if p c then pure c else failure

/-- One given character. -/
def exactly (c : Char) : Scan Unit := do
  let _ ← satisfying (· == c)

/-- Whether the rest starts with a character that satisfies `p`. -/
def startsWith (p : Char → Bool) : Scan Bool := do
  match ← get with
  | [] => pure false
  | c :: _ => pure (p c)

/-- Drops characters as long as they satisfy `p`. -/
def skipWhile (p : Char → Bool) : Scan Unit :=
  modify (·.dropWhile p)

/-- Drops blanks. -/
def skipBlanks : Scan Unit :=
  skipWhile isBlank

/-- The value of a list of decimal digits. -/
def digitsValue (ds : List Char) : Nat :=
  ds.foldl (fun n d => 10 * n + (d.toNat - '0'.toNat)) 0

/-- The longest run of digits at the front, cut at `most`, which has to reach `least`. -/
def digits (least : Nat) (most : Option Nat) : Scan (List Char) := do
  let cs ← get
  let run := cs.takeWhile Char.isDigit
  let ds := match most with
    | none => run
    | some most => run.take most
  if ds.length < least then failure
  else
    set (cs.drop ds.length)
    pure ds

/-- A number of `least` to `most` digits. -/
def number (least : Nat) (most : Option Nat) : Scan Nat :=
  digitsValue <$> digits least most

end Scan

end Colloquy.Text
