import Colloquy.Json.Reader

/-!
# Levels of a JSON text

A text whose values stand too deep inside one another is refused at the bracket or brace that opens one
level too many. The place is told by its line and by the bytes of the line up to it.
-/

namespace Colloquy.Json

/-- A place in a text. -/
structure Place where
  /-- The line, counted from one. -/
  line : Nat
  /-- How many bytes of the line are taken. -/
  column : Nat
  deriving DecidableEq, Repr

/-- The place behind one more character. -/
def Place.past (place : Place) (c : Char) : Place :=
  if c == '\n' then ⟨place.line + 1, 0⟩ else ⟨place.line, place.column + c.utf8Size⟩

/-- The place behind the first bracket or brace that opens a level beyond the deepest one. What stands
in quotation marks opens none. -/
def surplusFrom? (deepest : Nat) :
    (quoted : Bool) → (level : Nat) → (place : Place) → List Char → Option Place
  | _, _, _, [] => none
  | true, level, place, '\\' :: c :: rest =>
    surplusFrom? deepest true level ((place.past '\\').past c) rest
  | true, level, place, c :: rest =>
    surplusFrom? deepest (c != '"') level (place.past c) rest
  | false, level, place, c :: rest =>
    let next := place.past c
    if c == '[' || c == '{' then
      if level < deepest then surplusFrom? deepest false (level + 1) next rest else some next
    else if c == ']' || c == '}' then surplusFrom? deepest false (level - 1) next rest
    else surplusFrom? deepest (c == '"') level next rest

/-- The place at which a text goes deeper than is allowed. -/
def surplus? (s : String) : Option Place :=
  surplusFrom? rules.depth false 0 ⟨1, 0⟩ s.toList

/-- What is said of a text that a decoder would read if it were not for the depth, behind the name of
what the text stands for. The wording of other faults is left open. -/
def depthNote {α : Type} (decoder : Decoder α) (s : String) : String :=
  match (datum? s).bind (decoder { rules with depth := s.length }), surplus? s with
  | some _, some place => ": recursion limit exceeded at line " ++ toString place.line ++
      " column " ++ toString place.column
  | _, _ => ""

end Colloquy.Json
