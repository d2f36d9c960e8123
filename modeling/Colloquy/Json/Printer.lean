import Colloquy.Json
import Colloquy.Decimal.Layout

/-!
# Printing JSON

The compact text of a value: no blanks between its parts, and no escapes but those that the notation
demands.
-/

namespace Colloquy.Json

/-- Numbers have at least one decimal, an exponent only below -5 and from 16 on, and a value that is
no number is null. -/
def numberLayout : Decimal.Layout :=
  ⟨fun exponent => -5 ≤ exponent && exponent ≤ 15, ".0", "+", .even, "null", "null"⟩

/-- A double as text; an infinity has no sign. -/
def doubleText (x : Float) : String :=
  if x.isFinite then numberLayout.float x else "null"

/-- A number of single precision as text; an infinity has no sign. -/
def singleText (x : Float32) : String :=
  if x.isFinite then numberLayout.float32 x else "null"

/-- A digit in base sixteen. -/
def hexDigit (n : Nat) : Char :=
  Nat.digitChar (n % 16)

/-- A character as it stands between quotes. -/
def quotedChar (c : Char) : List Char :=
  if c = '"' then ['\\', '"']
  else if c = '\\' then ['\\', '\\']
  else if c = '\x08' then ['\\', 'b']
  else if c = '\t' then ['\\', 't']
  else if c = '\n' then ['\\', 'n']
  else if c = '\x0c' then ['\\', 'f']
  else if c = '\r' then ['\\', 'r']
  else if c.toNat < 0x20 then ['\\', 'u', '0', '0', hexDigit (c.toNat / 16), hexDigit c.toNat]
  else [c]

/-- A text between quotes. -/
def quotedChars (s : String) : List Char :=
  '"' :: s.toList.flatMap quotedChar ++ ['"']

mutual
/-- The characters of a value. -/
def chars : Json → List Char
  | .null => "null".toList
  | .bool b => if b then "true".toList else "false".toList
  | .integer n => (toString n).toList
  | .double x => (doubleText x).toList
  | .single x => (singleText x).toList
  | .text s => quotedChars s
  | .list [] => ['[', ']']
  | .list (item :: rest) => '[' :: (chars item ++ charsBehindItem rest)
  | .record [] => ['{', '}']
  | .record ((name, member) :: rest) =>
    '{' :: (quotedChars name ++ ':' :: (chars member ++ charsBehindMember rest))
termination_by structural v => v
/-- The characters behind an item of a list, up to the closing bracket. -/
def charsBehindItem : List Json → List Char
  | [] => [']']
  | item :: rest => ',' :: (chars item ++ charsBehindItem rest)
termination_by structural items => items
/-- The characters behind a member of a record, up to the closing brace. -/
def charsBehindMember : List (String × Json) → List Char
  | [] => ['}']
  | (name, member) :: rest =>
    ',' :: (quotedChars name ++ ':' :: (chars member ++ charsBehindMember rest))
termination_by structural members => members
end

/-- The compact text of a value. -/
def print (v : Json) : String :=
  String.ofList v.chars

end Colloquy.Json
