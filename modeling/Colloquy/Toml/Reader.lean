import Colloquy.Datum.Decoder
import Colloquy.Toml.Scalar
import Colloquy.Toml.Table

/-!
# Reading TOML

A TOML text as a tree of data: lines that are empty, open a table by a header, or give a key its
value. Arrays and inline tables nest to a fixed depth.
-/

namespace Colloquy.Toml

open Text Text.Scan

/-- How many arrays and inline tables may stand in one another. -/
def maxDepth : Nat := 79

/-- Drops blanks, comments and line ends, at most `fuel` lines of them. -/
def skipLines : (fuel : Nat) → Scan Unit
  | 0 => pure ()
  | fuel + 1 => do
    skipSpaces
    match ← get with
    | '#' :: rest =>
      match afterNewline? (rest.dropWhile isPrintable) with
      | some rest => set rest; skipLines fuel
      | none => failure
    | cs =>
      match afterNewline? cs with
      | some rest => set rest; skipLines fuel
      | none => pure ()

/-- Drops blanks, comments and line ends. -/
def skipGap : Scan Unit := do
  skipLines ((← get).length + 1)

/-- A given word. -/
def word (s : String) : Scan Unit := do
  let cs ← get
  if s.toList.isPrefixOf cs then set (cs.drop s.length) else failure

mutual
/-- A value, with `depth` more levels allowed. -/
def value : (fuel depth : Nat) → Scan Datum
  | 0, _ => failure
  | fuel + 1, depth => do
    match ← get with
    | '"' :: _ => .text <$> quotedText
    | '\'' :: _ => .text <$> quotedText
    | '[' :: rest =>
      if depth = 0 then failure
      else
        set rest
        .list <$> arrayItems fuel (depth - 1)
    | '{' :: rest =>
      if depth = 0 then failure
      else
        set rest
        skipSpaces
        if ← startsWith (· == '}') then
          let _ ← next
          pure (.record [])
        else
          let entries ← inlineEntries fuel (depth - 1) []
          pure (.record (entriesData entries))
    | 't' :: _ => word "true"; pure (.bool true)
    | 'f' :: _ => word "false"; pure (.bool false)
    | _ => numberOrTime
termination_by structural fuel => fuel
/-- The items of an array up to its closing bracket; a comma may stand behind the last. -/
def arrayItems : (fuel depth : Nat) → Scan (List Datum)
  | 0, _ => failure
  | fuel + 1, depth => do
    skipGap
    if ← startsWith (· == ']') then
      let _ ← next
      return []
    let item ← value fuel depth
    skipGap
    match ← next with
    | ',' => return item :: (← arrayItems fuel depth)
    | ']' => return [item]
    | _ => failure
termination_by structural fuel => fuel
/-- The entries of an inline table, one at least, up to its closing brace, added to `entries`. -/
def inlineEntries : (fuel depth : Nat) → Entries → Scan Entries
  | 0, _, _ => failure
  | fuel + 1, depth, entries => do
    let (path, last) ← key
    exactly '='
    skipSpaces
    let d ← value fuel depth
    skipSpaces
    let entries ← (entries.assign path last d : Option Entries)
    match ← next with
    | ',' => inlineEntries fuel depth entries
    | '}' => pure entries
    | _ => failure
termination_by structural fuel => fuel
end

/-- A header up to the end of its line. -/
def header : Scan Header := do
  exactly '['
  let isItem ← startsWith (· == '[')
  if isItem then
    let _ ← next
  let (path, last) ← key
  exactly ']'
  if isItem then exactly ']'
  lineRest
  pure ⟨isItem, path, last⟩

/-- The lines of a document, at most `fuel` of them. -/
def lines : (fuel : Nat) → Document → Scan Document
  | 0, document => pure document
  | fuel + 1, document => do
    skipSpaces
    match ← get with
    | [] => pure document
    | '#' :: _ =>
      lineRest
      lines fuel document
    | '[' :: _ =>
      let header ← header
      let document ← (document.open? header : Option Document)
      lines fuel document
    | cs =>
      match afterNewline? cs with
      | some rest =>
        set rest
        lines fuel document
      | none =>
        let (path, last) ← key
        exactly '='
        skipSpaces
        let d ← value cs.length maxDepth
        lineRest
        let document ← (document.assign? path last d : Option Document)
        lines fuel document

/-- The text without a mark of its byte order. -/
def withoutMark : List Char → List Char
  | c :: rest => if c = Char.ofNat 0xFEFF then rest else c :: rest
  | [] => []

/-- The tree of a TOML text. -/
def datum? (s : String) : Option Datum := do
  let cs := withoutMark s.toList
  match ← lines (cs.length + 1) .empty cs with
  | (document, []) => document.datum?
  | _ => none

/-- Whether a tree is a list or a record with nothing in it. -/
def isEmptyTable : Datum → Bool
  | .list [] => true
  | .record [] => true
  | _ => false

/-- What TOML allows: as many levels as it can write, surplus items, and an empty table or array
behind a choice. -/
def rules (s : String) : Datum.Rules :=
  ⟨s.length + 2, true, isEmptyTable⟩

/-- Reads a TOML text by a decoder. -/
def readAs? {α : Type} (decoder : Decoder α) (s : String) : Option α := do
  decoder (rules s) (← datum? s)

end Colloquy.Toml
