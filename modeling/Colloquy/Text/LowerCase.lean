import Colloquy.Text.Blank
import Colloquy.Text.LowerCaseTable

/-!
# Lower-casing of texts

The small form of a text by the full rules of Unicode: one capital may become two characters, and
a capital sigma becomes a final sigma exactly at the end of a word.
-/

namespace Colloquy.Text

/-- A character has a case when Unicode gives it the property Cased. -/
def isCased (c : Char) : Bool :=
  inRanges casedRanges c.toNat

/-- A character is passed over in the search for a neighbouring letter when Unicode gives it the
property Case_Ignorable. -/
def isCaseIgnorable (c : Char) : Bool :=
  inRanges caseIgnorableRanges c.toNat

/-- Whether a code point belongs to a run of capitals. -/
def inRun (n : Nat) (run : Nat × Nat × Nat × Int) : Bool :=
  run.1 ≤ n && n ≤ run.2.1 && (n - run.1) % run.2.2.1 == 0

/-- The small form of a character outside any word: the dotted capital I becomes two characters,
every other character one. -/
def smallForm (c : Char) : List Char :=
  if c = Char.ofNat 0x130 then ['i', Char.ofNat 0x307]
  else if c = Char.ofNat 0x3A3 then [Char.ofNat 0x3C3]
  else match smallLetterRuns.find? (inRun c.toNat) with
    | some run => [Char.ofNat (c.toNat + run.2.2.2).toNat]
    | none => [c]

/-- Whether the first character that is not passed over exists and has a case. -/
def meetsLetter (cs : List Char) : Bool :=
  match cs.dropWhile isCaseIgnorable with
  | [] => false
  | c :: _ => isCased c

/-- The small form of the characters `after`, which stand behind the characters `before` (nearest
first): a capital sigma with a letter before it in its word and none behind it is final. -/
def lowerFrom (before : List Char) : List Char → List Char
  | [] => []
  | c :: after =>
    (if c = Char.ofNat 0x3A3 && meetsLetter before && !meetsLetter after then [Char.ofNat 0x3C2]
      else smallForm c) ++ lowerFrom (c :: before) after

/-- The small form of a text. -/
def lower (s : String) : String :=
  String.ofList (lowerFrom [] s.toList)

end Colloquy.Text
