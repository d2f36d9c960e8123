/-!
# Data of a structured text

What a structured text says, before it is fitted to a type: a tree in which a record still has its
members in the order they were written, repeated names included. Every notation that the library
reads ends in such a tree, so that the rules for fitting a tree to a type are stated once.
-/

namespace Colloquy

/-- A tree of data as written. -/
inductive Datum where
  /-- The absent value. -/
  | null
  /-- A truth value. -/
  | bool (b : Bool)
  /-- A number written without fraction and exponent. -/
  | integer (n : Int)
  /-- Any other number. -/
  | float (x : Float)
  /-- A text. -/
  | text (s : String)
  /-- A sequence. -/
  | list (items : List Datum)
  /-- Named members in the order they were written; a name that is no text is `none`. -/
  | record (members : List (Option String × Datum))
  /-- A scalar that is well formed and yet denotes nothing, such as a number beyond all doubles. It
  may stand wherever nobody looks at it. -/
  | unreadable

end Colloquy
