import Colloquy.Datum.Decoder

/-!
# JSON values

The values that tools exchange. The members of a value read from outside are sorted by name, each
name once; the members of a value that the library builds keep the order in which it writes them.
-/

namespace Colloquy

/-- A JSON value. -/
inductive Json where
  /-- The absent value. -/
  | null
  /-- A truth value. -/
  | bool (b : Bool)
  /-- A number written without fraction and exponent. -/
  | integer (n : Int)
  /-- A number of double precision. -/
  | double (x : Float)
  /-- A number of single precision. -/
  | single (x : Float32)
  /-- A text. -/
  | text (s : String)
  /-- A sequence. -/
  | list (items : List Json)
  /-- Named members. -/
  | record (members : List (String × Json))

namespace Json

/-- A JSON object on its own. -/
abbrev Members := List (String × Json)

/-- Members sorted by name with one more member, in place of the one of that name if there is one. -/
def Members.insert (name : String) (value : Json) : Members → Members
  | [] => [(name, value)]
  | (other, old) :: rest =>
    if name < other then (name, value) :: (other, old) :: rest
    else if name = other then (name, value) :: rest
    else (other, old) :: Members.insert name value rest

/-- The members sorted by name; of members with one name the last counts. -/
def Members.sorted (members : Members) : Members :=
  members.foldl (fun sorted member => sorted.insert member.1 member.2) []

/-- The member of a name. -/
def Members.get? (members : Members) (name : String) : Option Json :=
  members.lookup name

/-- The text that a value is. -/
def asText? : Json → Option String
  | .text s => some s
  | _ => none

/-- The members that a value is made of. -/
def asRecord? : Json → Option Members
  | .record members => some members
  | _ => none

/-- The member of a name when there is something to write, and nothing otherwise. -/
def member? {α : Type} (name : String) (encode : α → Json) : Option α → Members
  | none => []
  | some a => [(name, encode a)]

/-- The list of a name unless it is empty. -/
def nonEmpty {α : Type} (name : String) (encode : α → Json) : List α → Members
  | [] => []
  | items => [(name, .list (items.map encode))]

/-- A natural number. -/
def nat (n : Nat) : Json :=
  .integer n

/-- A word of 32 bits. -/
def word32 (n : UInt32) : Json :=
  .nat n.toNat

mutual
/-- A tree of data as a value, if every part of it is readable and as deep as the rules allow. A
number that is no finite double becomes null. -/
def decode : Decoder Json
  | _, .null => some .null
  | _, .bool b => some (.bool b)
  | _, .integer n => some (.integer n)
  | _, .float x => some (if x.isFinite then .double x else .null)
  | _, .text s => some (.text s)
  | rules, .list items =>
    match rules.inner? with
    | none => none
    | some inner => .list <$> decodeItems inner items
  | rules, .record members =>
    match rules.inner? with
    | none => none
    | some inner => (fun members => .record members.sorted) <$> decodeMembers inner members
  | _, .unreadable => none
termination_by structural _ d => d
/-- The values of the items of a list. -/
def decodeItems (rules : Datum.Rules) : List Datum → Option (List Json)
  | [] => some []
  | item :: rest => do
    let value ← decode rules item
    let values ← decodeItems rules rest
    some (value :: values)
termination_by structural items => items
/-- The values of the members of a record, as written. -/
def decodeMembers (rules : Datum.Rules) : List (Option String × Datum) → Option Members
  | [] => some []
  | (name, member) :: rest => do
    let name ← name
    let value ← decode rules member
    let values ← decodeMembers rules rest
    some ((name, value) :: values)
termination_by structural members => members
end

/-- Reads a record as a JSON object. -/
def decodeObject : Decoder Members := fun rules d =>
  (decode rules d).bind asRecord?

end Json

end Colloquy
