import Colloquy.Completion

/-!
# Assembling calls

The fragments of a completion's calls arrive in any grouping and order. Those of one index make one
call: its name and id are the first ones that are not empty, and its arguments are all the pieces
one behind the other. A call that never gets a name is dropped; one that gets no id is named for its
index.
-/

namespace Colloquy

/-- What is known of a call so far. -/
structure PartialCall where
  /-- The model's name for the call. -/
  id : Option String
  /-- The tool to call. -/
  name : Option String
  /-- The arguments up to now. -/
  arguments : String
  deriving DecidableEq, Repr

namespace PartialCall

/-- A call of which nothing is known. -/
def empty : PartialCall :=
  ⟨none, none, ""⟩

/-- The first of two texts that is there, an empty second one not counting. -/
def firstText (known new : Option String) : Option String :=
  known.or (new.filter (!·.isEmpty))

/-- What is known after one more fragment. -/
def push (call : PartialCall) (fragment : Fragment) : PartialCall :=
  ⟨firstText call.id fragment.id, firstText call.name fragment.name,
    call.arguments ++ fragment.arguments.getD ""⟩

/-- The call at an index, if it has a name. -/
def finish? (index : UInt32) (call : PartialCall) : Option ToolCall :=
  call.name.map fun name => ⟨call.id.getD ("call_" ++ toString index.toNat), name, call.arguments⟩

end PartialCall

/-- The calls of one completion, in the order of their indices, which differ. -/
structure Accumulator where
  /-- The calls under their indices. -/
  calls : List (UInt32 × PartialCall)
  deriving DecidableEq, Repr

namespace Accumulator

/-- No calls. -/
def empty : Accumulator :=
  ⟨[]⟩

/-- Whether no fragment has arrived. -/
def isEmpty (accumulator : Accumulator) : Bool :=
  accumulator.calls.isEmpty

/-- Merges a fragment into the call of its index among calls in the order of their indices. -/
def pushInto (fragment : Fragment) : List (UInt32 × PartialCall) → List (UInt32 × PartialCall)
  | [] => [(fragment.index, PartialCall.empty.push fragment)]
  | (index, call) :: rest =>
    if fragment.index < index then
      (fragment.index, PartialCall.empty.push fragment) :: (index, call) :: rest
    else if fragment.index = index then (index, call.push fragment) :: rest
    else (index, call) :: pushInto fragment rest

/-- Merges a fragment into the call of its index. -/
def push (accumulator : Accumulator) (fragment : Fragment) : Accumulator :=
  ⟨pushInto fragment accumulator.calls⟩

/-- Merges fragments one after another. -/
def pushAll (accumulator : Accumulator) (fragments : List Fragment) : Accumulator :=
  fragments.foldl push accumulator

theorem pushAll_append (accumulator : Accumulator) (first second : List Fragment) :
    accumulator.pushAll (first ++ second) = (accumulator.pushAll first).pushAll second :=
  List.foldl_append

/-- The complete calls in the order of their indices. -/
def finish (accumulator : Accumulator) : List ToolCall :=
  accumulator.calls.filterMap fun (index, call) => call.finish? index

end Accumulator

end Colloquy
