import Colloquy.Datum
import Colloquy.Word

/-!
# Fitting data to types

A decoder takes a tree of data to a value of some type, or fails. How forgiving it is depends on the
notation that the tree comes from, and on how deep the tree has been entered; both are its rules.
The fields of a record may be written by name in any order, or as a list in their declared order.
-/

namespace Colloquy

namespace Datum

/-- What a notation allows at some place of a tree. -/
structure Rules where
  /-- How many further levels of lists and records may be entered. -/
  depth : Nat
  /-- Whether a list that stands for a record may have more items than the record has fields. -/
  surplus : Bool
  /-- Whether this may stand behind the name of a choice that carries nothing. -/
  isEmptyPayload : Datum → Bool

/-- The rules one level further in. -/
def Rules.inner? (rules : Rules) : Option Rules :=
  if rules.depth = 0 then none else some { rules with depth := rules.depth - 1 }

end Datum

/-- A way to read a tree of data as a value. -/
abbrev Decoder (α : Type) := Datum.Rules → Datum → Option α

namespace Decoder

/-- Reads a truth value. -/
def bool : Decoder Bool
  | _, .bool b => some b
  | _, _ => none

/-- Reads a text. -/
def text : Decoder String
  | _, .text s => some s
  | _, _ => none

/-- Reads an integer from zero up to, but not including, a bound. -/
def natBelow (bound : Nat) : Decoder Nat
  | _, .integer n => if 0 ≤ n && n < bound then some n.toNat else none
  | _, _ => none

/-- Reads a word of 32 bits. -/
def word32 : Decoder UInt32 := fun rules d =>
  (natBelow (Word.count 32) rules d).map (·.toUInt32)

/-- Reads a number of single precision; one too great is an infinity. -/
def single : Decoder Float32
  | _, .integer n => some (Float32.ofInt n)
  | _, .float x => some x.toFloat32
  | _, _ => none

/-- Reads a list whose items `item` reads. -/
def list {α : Type} (item : Decoder α) : Decoder (List α)
  | rules, .list items => do
    let inner ← rules.inner?
    items.mapM (item inner)
  | _, _ => none

/-- Reads one of some named choices: its name, or a record with the name as its only member. -/
def choice {α : Type} (choices : List (String × α)) : Decoder α
  | _, .text name => choices.lookup name
  | rules, .record [(some name, payload)] => do
    let inner ← rules.inner?
    if inner.isEmptyPayload payload then choices.lookup name else none
  | _, _ => none

end Decoder

namespace Datum

/-- The fields of a record that are present, under their names. -/
structure Fields where
  /-- The rules for the fields. -/
  rules : Rules
  /-- The fields that are present. -/
  present : List (String × Datum)

/-- The fields of a tree that is to be a record with the fields `names`: a record, in which no
field is given twice and members of other names are passed over, or a list. -/
def fields? (names : List String) (rules : Rules) : Datum → Option Fields
  | .record members => do
    let inner ← rules.inner?
    let named ← members.mapM fun member => member.1.map (·, member.2)
    let known := named.filter (names.contains ·.1)
    if (known.map (·.1)).Nodup then some ⟨inner, known⟩ else none
  | .list items => do
    let inner ← rules.inner?
    if items.length ≤ names.length || rules.surplus then some ⟨inner, names.zip items⟩ else none
  | _ => none

namespace Fields

/-- A field that has to be present. -/
def required {α : Type} (fields : Fields) (name : String) (decoder : Decoder α) : Option α := do
  decoder fields.rules (← fields.present.lookup name)

/-- A field that may be absent or null. -/
def optional {α : Type} (fields : Fields) (name : String) (decoder : Decoder α) :
    Option (Option α) :=
  match fields.present.lookup name with
  | none => some none
  | some .null => some none
  | some d => some <$> decoder fields.rules d

/-- A field that has a default when absent. -/
def withDefault {α : Type} (fields : Fields) (name : String) (decoder : Decoder α) (default : α) :
    Option α :=
  match fields.present.lookup name with
  | none => some default
  | some d => decoder fields.rules d

end Fields

end Datum

end Colloquy
