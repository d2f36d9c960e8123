import Colloquy.Json
import Colloquy.Json.Numeral

/-!
# Reading JSON

A JSON text as a tree of data. The notation sets no bound on nesting; how much of it is admitted is
decided where the tree is fitted to a type.
-/

namespace Colloquy.Json

/-- The blanks between the parts of a JSON text. -/
def isSpace (c : Char) : Bool :=
  c == ' ' || c == '\t' || c == '\n' || c == '\r'

/-- A piece of a quoted text: a character that stands for itself or behind a backslash, or a unit of
sixteen bits in base sixteen. -/
inductive Piece where
  /-- A character. -/
  | char (c : Char)
  /-- A unit of sixteen bits. -/
  | unit (n : Nat)
  deriving DecidableEq, Repr

/-- The value of a digit in base sixteen. -/
def hexValue? (c : Char) : Option Nat :=
  if c.isDigit then some (c.toNat - '0'.toNat)
  else if 'a' ≤ c && c ≤ 'f' then some (c.toNat - 'a'.toNat + 10)
  else if 'A' ≤ c && c ≤ 'F' then some (c.toNat - 'A'.toNat + 10)
  else none

/-- The value of digits in base sixteen. -/
def hexNumber? (ds : List Char) : Option Nat :=
  ds.foldlM (fun n d => (hexValue? d).map (16 * n + ·)) 0

/-- The character that a letter behind a backslash stands for. -/
def escaped? : Char → Option Char
  | '"' => some '"'
  | '\\' => some '\\'
  | '/' => some '/'
  | 'b' => some '\x08'
  | 'f' => some '\x0c'
  | 'n' => some '\n'
  | 'r' => some '\r'
  | 't' => some '\t'
  | _ => none

/-- The pieces of a text up to its closing quote, and what follows the quote. -/
def pieces : List Char → Option (List Piece × List Char)
  | [] => none
  | '"' :: rest => some ([], rest)
  | '\\' :: 'u' :: a :: b :: c :: d :: rest => do
    let n ← hexNumber? [a, b, c, d]
    let (ps, rest) ← pieces rest
    some (.unit n :: ps, rest)
  | '\\' :: e :: rest => do
    let c ← escaped? e
    let (ps, rest) ← pieces rest
    some (.char c :: ps, rest)
  | c :: rest =>
    if c.toNat < 0x20 || c == '\\' then none
    else do
      let (ps, rest) ← pieces rest
      some (.char c :: ps, rest)

/-- Whether a unit is the first half of a character. -/
def isHighHalf (n : Nat) : Bool :=
  0xD800 ≤ n && n < 0xDC00

/-- Whether a unit is the second half of a character. -/
def isLowHalf (n : Nat) : Bool :=
  0xDC00 ≤ n && n < 0xE000

/-- The characters of some pieces. Two halves of one character have to stand together. -/
def joined? : List Piece → Option (List Char)
  | [] => some []
  | .char c :: rest => (c :: ·) <$> joined? rest
  | .unit n :: .unit m :: rest =>
    if isHighHalf n then
      if isLowHalf m then
        (Char.ofNat (0x10000 + (n - 0xD800) * 0x400 + (m - 0xDC00)) :: ·) <$> joined? rest
      else none
    else if isLowHalf n then none
    else (Char.ofNat n :: ·) <$> joined? (.unit m :: rest)
  | .unit n :: rest =>
    if isHighHalf n || isLowHalf n then none else (Char.ofNat n :: ·) <$> joined? rest

/-- The text behind an opening quote, `none` if a half of a character stands alone in it, and what
follows it. -/
def quotedText (cs : List Char) : Option (Option String × List Char) := do
  let (ps, rest) ← pieces cs
  some ((joined? ps).map String.ofList, rest)

/-- What follows a word at the front of a text. -/
def afterWord? (word : String) (cs : List Char) : Option (List Char) :=
  if word.toList.isPrefixOf cs then some (cs.drop word.length) else none

mutual
/-- The value at the front of a text, behind any blanks, and what follows it. -/
def value : (fuel : Nat) → List Char → Option (Datum × List Char)
  | 0, _ => none
  | fuel + 1, cs =>
    match cs.dropWhile isSpace with
    | '[' :: rest =>
      match rest.dropWhile isSpace with
      | ']' :: rest => some (.list [], rest)
      | rest => do
        let (items, rest) ← items fuel rest
        some (.list items, rest)
    | '{' :: rest =>
      match rest.dropWhile isSpace with
      | '}' :: rest => some (.record [], rest)
      | rest => do
        let (members, rest) ← members fuel rest
        some (.record members, rest)
    | '"' :: rest => do
      let (s, rest) ← quotedText rest
      some (s.elim .unreadable .text, rest)
    | 'n' :: rest => (afterWord? "ull" rest).map (.null, ·)
    | 't' :: rest => (afterWord? "rue" rest).map (.bool true, ·)
    | 'f' :: rest => (afterWord? "alse" rest).map (.bool false, ·)
    | rest => do
      let (n, rest) ← numeral rest
      some (n.datum, rest)
termination_by structural fuel => fuel
/-- The items of a list up to its closing bracket, and what follows it. -/
def items : (fuel : Nat) → List Char → Option (List Datum × List Char)
  | 0, _ => none
  | fuel + 1, cs => do
    let (item, rest) ← value fuel cs
    match rest.dropWhile isSpace with
    | ',' :: rest => do
      let (more, rest) ← items fuel rest
      some (item :: more, rest)
    | ']' :: rest => some ([item], rest)
    | _ => none
termination_by structural fuel => fuel
/-- The members of a record up to its closing brace, and what follows it. -/
def members : (fuel : Nat) → List Char → Option (List (Option String × Datum) × List Char)
  | 0, _ => none
  | fuel + 1, cs =>
    match cs.dropWhile isSpace with
    | '"' :: rest => do
      let (name, rest) ← quotedText rest
      match rest.dropWhile isSpace with
      | ':' :: rest => do
        let (member, rest) ← value fuel rest
        match rest.dropWhile isSpace with
        | ',' :: rest => do
          let (more, rest) ← members fuel rest
          some ((name, member) :: more, rest)
        | '}' :: rest => some ([(name, member)], rest)
        | _ => none
      | _ => none
    | _ => none
termination_by structural fuel => fuel
end

/-- The tree of a JSON text. Every step of the reader but the last of a level takes a character, so
that two steps for each character are enough. -/
def datum? (s : String) : Option Datum := do
  let cs := s.toList
  let (d, rest) ← value (2 * cs.length + 2) cs
  if rest.all isSpace then some d else none

/-- What JSON allows: at most 127 levels, no surplus items, and null behind a choice. -/
def rules : Datum.Rules :=
  ⟨127, false, fun d => d matches .null⟩

/-- Reads a JSON text by a decoder. -/
def readAs? {α : Type} (decoder : Decoder α) (s : String) : Option α := do
  decoder rules (← datum? s)

/-- Reads a JSON text as a value. -/
def read? (s : String) : Option Json :=
  readAs? decode s

end Colloquy.Json
