import Colloquy.Completion.Accumulator

/-!
# Streams

A completion as it arrives: deltas and faults, one after another. A reader pulls the pieces of text
out of it one by one and gathers the calls on the way. The stream is over with the first delta that
says so, with the first fault, or when it is closed; what stands behind that is never looked at.
-/

namespace Colloquy

/-- What arrives in a stream. -/
abbrev StreamItem := Except ModelFault Delta

/-- A stream: all that arrives in it, and whether it stays open behind the last item. -/
structure ModelStream where
  /-- The items in the order of their arrival. -/
  items : List StreamItem
  /-- Whether the stream stays open behind them. -/
  staysOpen : Bool

/-- What a pull gives. -/
inductive Pull where
  /-- A piece of text, which is not empty. -/
  | text (s : String)
  /-- The fault that ended the stream. -/
  | fault (fault : ModelFault)
  /-- The stream is over. -/
  | over
  /-- Nothing ever arrives any more, and yet the stream is not closed. -/
  | waiting
  deriving DecidableEq, Repr

/-- The text of a delta, unless it is empty. -/
def Delta.text? (delta : Delta) : Option String :=
  delta.content.filter (!·.isEmpty)

/-- A stream that is being read. -/
structure Aggregator where
  /-- What is left of the stream. -/
  stream : ModelStream
  /-- The calls so far. -/
  calls : Accumulator
  /-- Whether the stream is over. -/
  done : Bool

namespace Aggregator

/-- The reader of a stream from its start. -/
def ofStream (stream : ModelStream) : Aggregator :=
  ⟨stream, .empty, false⟩

/-- Pulls from the items of a stream. -/
def pullItems (staysOpen : Bool) (calls : Accumulator) : List StreamItem → Pull × Aggregator
  | [] => (if staysOpen then .waiting else .over, ⟨⟨[], staysOpen⟩, calls, !staysOpen⟩)
  | .error fault :: rest => (.fault fault, ⟨⟨rest, staysOpen⟩, calls, true⟩)
  | .ok delta :: rest =>
    let gathered := calls.pushAll delta.fragments
    match delta.text?, delta.done with
    | some s, done => (.text s, ⟨⟨rest, staysOpen⟩, gathered, done⟩)
    | none, true => (.over, ⟨⟨rest, staysOpen⟩, gathered, true⟩)
    | none, false => pullItems staysOpen gathered rest

/-- The next piece of text, or why there is none. -/
def pull (reader : Aggregator) : Pull × Aggregator :=
  if reader.done then (.over, reader)
  else pullItems reader.stream.staysOpen reader.calls reader.stream.items

private theorem length_lt_of_pullItems (staysOpen : Bool) (calls : Accumulator)
    (items : List StreamItem)
    {s : String} {next : Aggregator} (h : pullItems staysOpen calls items = (.text s, next)) :
    next.stream.items.length < items.length := by
  induction items generalizing calls with
  | nil => cases staysOpen <;> cases h
  | cons item rest ih =>
    cases item with
    | error fault => cases h
    | ok delta =>
      rw [pullItems] at h
      split at h
      · cases h
        exact Nat.lt_succ_self rest.length
      · cases h
      · exact Nat.lt_succ_of_lt (ih _ h)

/-- Whoever pulls a piece of text leaves less of the stream. -/
theorem length_lt_of_pull (reader : Aggregator) {s : String} {next : Aggregator}
    (h : reader.pull = (.text s, next)) :
    next.stream.items.length < reader.stream.items.length := by
  rw [pull] at h
  split at h
  · cases h
  · exact length_lt_of_pullItems _ _ _ h

/-- The complete calls. -/
def finish (reader : Aggregator) : List ToolCall :=
  reader.calls.finish

end Aggregator

end Colloquy
