import Colloquy.Text.Scan

/-!
# Lexemes of TOML

Blanks, line ends, comments, the four kinds of quoted text, and keys. Text on one line may hold
tabs but no other control characters; text over several lines may hold line ends too, which count
as line feeds however they are written.
-/

namespace Colloquy.Toml

open Text

/-- The blanks within a line. -/
def isSpace (c : Char) : Bool :=
  c == ' ' || c == '\t'

/-- The characters of comments and, quotes and backslashes apart, of texts on one line. -/
def isPrintable (c : Char) : Bool :=
  c == '\t' || (0x20 ≤ c.toNat && c.toNat ≠ 0x7F)

/-- Drops the blanks up to the next part of a line. -/
def skipSpaces : Scan Unit :=
  Scan.skipWhile isSpace

/-- What follows a line end at the front of a text. -/
def afterNewline? : List Char → Option (List Char)
  | '\n' :: rest => some rest
  | '\r' :: '\n' :: rest => some rest
  | _ => none

/-- The end of a line or of the text. -/
def lineEnd : Scan Unit := fun cs =>
  match cs with
  | [] => some ((), [])
  | cs => (afterNewline? cs).map ((), ·)

/-- Drops a comment if one starts here. -/
def skipComment : Scan Unit := do
  if ← Scan.startsWith (· == '#') then
    Scan.skipWhile isPrintable

/-- The rest of a line behind its content. -/
def lineRest : Scan Unit := do
  skipSpaces
  skipComment
  lineEnd

/-- The value of a digit in base sixteen. -/
def hexValue? (c : Char) : Option Nat :=
  if c.isDigit then some (c.toNat - '0'.toNat)
  else if 'a' ≤ c && c ≤ 'f' then some (c.toNat - 'a'.toNat + 10)
  else if 'A' ≤ c && c ≤ 'F' then some (c.toNat - 'A'.toNat + 10)
  else none

/-- The character of a code point written in base sixteen. -/
def codePoint? (ds : List Char) : Option Char := do
  let n ← ds.foldlM (fun n d => (hexValue? d).map (16 * n + ·)) 0
  if n < 0xD800 || (0xDFFF < n && n < 0x110000) then some (Char.ofNat n) else none

/-- The character that a letter behind a backslash stands for. -/
def escaped? : Char → Option Char
  | '"' => some '"'
  | '\\' => some '\\'
  | 'b' => some '\x08'
  | 'f' => some '\x0c'
  | 'n' => some '\n'
  | 'r' => some '\r'
  | 't' => some '\t'
  | _ => none

/-- A text on one line behind its opening quote, and what follows it. -/
def basicText : List Char → Option (List Char × List Char)
  | [] => none
  | '"' :: rest => some ([], rest)
  | '\\' :: 'u' :: a :: b :: c :: d :: rest => do
    let escaped ← codePoint? [a, b, c, d]
    let (s, rest) ← basicText rest
    some (escaped :: s, rest)
  | '\\' :: 'U' :: a :: b :: c :: d :: e :: f :: g :: h :: rest => do
    let escaped ← codePoint? [a, b, c, d, e, f, g, h]
    let (s, rest) ← basicText rest
    some (escaped :: s, rest)
  | '\\' :: e :: rest => do
    let escaped ← escaped? e
    let (s, rest) ← basicText rest
    some (escaped :: s, rest)
  | c :: rest =>
    if isPrintable c && c ≠ '\\' then do
      let (s, rest) ← basicText rest
      some (c :: s, rest)
    else none

/-- Whether only blanks stand before the next line end. -/
def endsLine (cs : List Char) : Bool :=
  (afterNewline? (cs.dropWhile isSpace)).isSome

/-- A text over several lines behind its opening quotes, and what follows it. Up to two quotes may
stand in it, also right before the closing three. A backslash at the end of a line takes away the
blanks and line ends that follow; while they are taken away, `folding` is set. -/
def basicLines (folding : Bool) : List Char → Option (List Char × List Char)
  | [] => none
  | '"' :: '"' :: '"' :: '"' :: '"' :: rest => some (['"', '"'], rest)
  | '"' :: '"' :: '"' :: '"' :: rest => some (['"'], rest)
  | '"' :: '"' :: '"' :: rest => some ([], rest)
  | '\\' :: 'u' :: a :: b :: c :: d :: rest => do
    let escaped ← codePoint? [a, b, c, d]
    let (s, rest) ← basicLines false rest
    some (escaped :: s, rest)
  | '\\' :: 'U' :: a :: b :: c :: d :: e :: f :: g :: h :: rest => do
    let escaped ← codePoint? [a, b, c, d, e, f, g, h]
    let (s, rest) ← basicLines false rest
    some (escaped :: s, rest)
  | '\\' :: e :: rest =>
    if endsLine (e :: rest) then
      if e == '\r' then
        match rest with
        | _ :: rest => basicLines true rest
        | [] => none
      else basicLines true rest
    else do
      let escaped ← escaped? e
      let (s, rest) ← basicLines false rest
      some (escaped :: s, rest)
  | '\r' :: '\n' :: rest => do
    let (s, rest) ← basicLines folding rest
    some (if folding then s else '\n' :: s, rest)
  | c :: rest =>
    if folding && (isSpace c || c == '\n') then basicLines true rest
    else if (isPrintable c || c == '\n') && c ≠ '\\' then do
      let (s, rest) ← basicLines false rest
      some (c :: s, rest)
    else none

/-- A text without escapes on one line behind its opening quote, and what follows it. -/
def literalText : List Char → Option (List Char × List Char)
  | [] => none
  | '\'' :: rest => some ([], rest)
  | c :: rest =>
    if isPrintable c then do
      let (s, rest) ← literalText rest
      some (c :: s, rest)
    else none

/-- A text without escapes over several lines behind its opening quotes, and what follows it. -/
def literalLines : List Char → Option (List Char × List Char)
  | [] => none
  | '\'' :: '\'' :: '\'' :: '\'' :: '\'' :: rest => some (['\'', '\''], rest)
  | '\'' :: '\'' :: '\'' :: '\'' :: rest => some (['\''], rest)
  | '\'' :: '\'' :: '\'' :: rest => some ([], rest)
  | '\r' :: '\n' :: rest => do
    let (s, rest) ← literalLines rest
    some ('\n' :: s, rest)
  | c :: rest =>
    if isPrintable c || c == '\n' then do
      let (s, rest) ← literalLines rest
      some (c :: s, rest)
    else none

/-- What stands behind a line end that directly follows opening quotes. -/
def behindFirstLineEnd (cs : List Char) : List Char :=
  (afterNewline? cs).getD cs

/-- A quoted text of any kind. -/
def quotedText : Scan String := fun cs =>
  let read := match cs with
    | '"' :: '"' :: '"' :: rest => basicLines false (behindFirstLineEnd rest)
    | '"' :: rest => basicText rest
    | '\'' :: '\'' :: '\'' :: rest => literalLines (behindFirstLineEnd rest)
    | '\'' :: rest => literalText rest
    | _ => none
  read.map fun (s, rest) => (String.ofList s, rest)

/-- The characters of bare keys. -/
def isBareKeyChar (c : Char) : Bool :=
  c.isAlphanum || c == '-' || c == '_'

/-- One part of a key: a quoted text on one line, or a bare key. -/
def keyPart : Scan String := do
  match ← get with
  | '"' :: rest =>
    let (s, rest) ← (basicText rest : Option _)
    set rest
    pure (String.ofList s)
  | '\'' :: rest =>
    let (s, rest) ← (literalText rest : Option _)
    set rest
    pure (String.ofList s)
  | cs =>
    let bare := cs.takeWhile isBareKeyChar
    if bare.isEmpty then failure
    else
      set (cs.drop bare.length)
      pure (String.ofList bare)

/-- The parts of a key behind the first one, which are at most `fuel`. -/
def moreKeyParts : (fuel : Nat) → Scan (List String)
  | 0 => failure
  | fuel + 1 => do
    skipSpaces
    if ← Scan.startsWith (· == '.') then
      let _ ← Scan.next
      skipSpaces
      let part ← keyPart
      return part :: (← moreKeyParts fuel)
    else return []

/-- The most parts of a key. -/
def maxKeyParts : Nat := 79

/-- A key: the parts before the last one, and the last one. Blanks may stand around every part. -/
def key : Scan (List String × String) := do
  skipSpaces
  let first ← keyPart
  let parts := first :: (← moreKeyParts ((← get).length + 1))
  if parts.length ≤ maxKeyParts then pure (parts.dropLast, parts.getLastD first) else failure

end Colloquy.Toml
