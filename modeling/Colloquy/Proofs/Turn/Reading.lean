import Colloquy.Turn

/-!
# Reading a stream to its end

What a turn gets out of a stream piece by piece, told of the stream as a whole: the pieces of text
and the calls are those of the deltas up to the first that says the stream is over, and the stream
ends in good order, with a fault or not at all.
-/

namespace Colloquy

namespace ModelStream

/-- The deltas that count among items: all up to the first that ends the stream. -/
def counted : List StreamItem → List Delta
  | [] | .error _ :: _ => []
  | .ok delta :: rest => delta :: if delta.done then [] else counted rest

theorem counted_of_done {delta : Delta} (hdone : delta.done = true) (rest : List StreamItem) :
    counted (.ok delta :: rest) = [delta] := by
  rw [counted, if_pos hdone]

theorem counted_of_not_done {delta : Delta} (hdone : delta.done = false)
    (rest : List StreamItem) : counted (.ok delta :: rest) = delta :: counted rest := by
  rw [counted, if_neg (by simp [hdone])]

/-- How a stream ends. -/
inductive Ending where
  /-- In good order. -/
  | closed
  /-- With a fault. -/
  | fault (fault : ModelFault)
  /-- Not at all. -/
  | never
  deriving DecidableEq, Repr

/-- How a stream of items ends. -/
def endingOf (staysOpen : Bool) : List StreamItem → Ending
  | [] => if staysOpen then .never else .closed
  | .error fault :: _ => .fault fault
  | .ok delta :: rest => if delta.done then .closed else endingOf staysOpen rest

/-- The deltas that count. -/
def deltas (stream : ModelStream) : List Delta :=
  counted stream.items

/-- The pieces of text that count, none of them empty. -/
def texts (stream : ModelStream) : List String :=
  stream.deltas.filterMap Delta.text?

/-- How the stream ends. -/
def ending (stream : ModelStream) : Ending :=
  endingOf stream.staysOpen stream.items

/-- The calls that the deltas that count make. -/
def calls (stream : ModelStream) : List ToolCall :=
  (Accumulator.empty.pushAll (stream.deltas.flatMap (·.fragments))).finish

end ModelStream

namespace Turn

section Pulls

variable {text : String} {reader next : Aggregator}

private theorem forward_of_text {s : String} (h : reader.pull = (.text s, next)) :
    forward text reader =
      Heedful.await >>= fun _ => Heedful.say s >>= fun _ => forward (text ++ s) next := by
  rw [forward]
  split
  all_goals rename_i hpull
  all_goals cases h.symm.trans hpull
  rfl

private theorem forward_of_over (h : reader.pull = (.over, next)) :
    forward text reader = Heedful.await >>= fun _ => pure (text, next.finish) := by
  rw [forward]
  split
  all_goals rename_i hpull
  all_goals cases h.symm.trans hpull
  rfl

private theorem forward_of_fault {fault : ModelFault} (h : reader.pull = (.fault fault, next)) :
    forward text reader = Heedful.await >>= fun _ => throw (.fault (.model fault)) := by
  rw [forward]
  split
  all_goals rename_i hpull
  all_goals cases h.symm.trans hpull
  rfl

private theorem forward_of_waiting (h : reader.pull = (.waiting, next)) :
    forward text reader = Heedful.waitForever := by
  rw [forward]
  split
  all_goals rename_i hpull
  all_goals cases h.symm.trans hpull
  rfl

private theorem forward_congr {reader' : Aggregator} (h : reader.pull = reader'.pull) :
    forward text reader = forward text reader' := by
  rcases hpull : reader'.pull with ⟨pull, next⟩
  rw [hpull] at h
  cases pull with
  | text s => rw [forward_of_text h, forward_of_text hpull]
  | fault fault => rw [forward_of_fault h, forward_of_fault hpull]
  | waiting => rw [forward_of_waiting h, forward_of_waiting hpull]
  | _ => rw [forward_of_over h, forward_of_over hpull]

end Pulls

/-- Delivers pieces of text as they arrive, one after another. -/
def forwardAll : List String → Heedful Unit
  | [] => pure ()
  | piece :: rest => do
    Heedful.await
    Heedful.say piece
    forwardAll rest

private theorem forwardAll_cons_bind {α : Type} (piece : String) (rest : List String)
    (f : Unit → Heedful α) :
    forwardAll (piece :: rest) >>= f =
      Heedful.await >>= fun _ => Heedful.say piece >>= fun _ => forwardAll rest >>= f := by
  rw [forwardAll, bind_assoc]
  simp only [bind_assoc]

/-- What a turn does at the end of a stream. -/
def atEnd (text : String) (calls : List ToolCall) :
    ModelStream.Ending → Heedful (String × List ToolCall)
  | .closed => do
    Heedful.await
    pure (text, calls)
  | .fault fault => do
    Heedful.await
    throw (.fault (.model fault))
  | .never => Heedful.waitForever

private theorem forward_items (staysOpen : Bool) (items : List StreamItem) (text : String)
    (calls : Accumulator) :
    forward text ⟨⟨items, staysOpen⟩, calls, false⟩ =
      forwardAll ((ModelStream.counted items).filterMap Delta.text?) >>= fun _ =>
        atEnd (text ++ String.join ((ModelStream.counted items).filterMap Delta.text?))
          (calls.pushAll ((ModelStream.counted items).flatMap (·.fragments))).finish
          (ModelStream.endingOf staysOpen items) := by
  induction items generalizing text calls with
  | nil =>
    rw [ModelStream.counted, List.filterMap_nil, String.join_nil, String.append_empty]
    cases staysOpen with
    | true => exact forward_of_waiting rfl
    | false =>
      let reader : Aggregator := ⟨⟨[], false⟩, calls, false⟩
      have hpull : reader.pull = (.over, ⟨⟨[], false⟩, calls, true⟩) := rfl
      exact forward_of_over hpull
  | cons item rest ih =>
    cases item with
    | error fault => exact forward_of_fault rfl
    | ok delta =>
      have hpull : (Aggregator.mk ⟨.ok delta :: rest, staysOpen⟩ calls false).pull =
          Aggregator.pullItems staysOpen calls (.ok delta :: rest) := rfl
      rw [Aggregator.pullItems] at hpull
      rw [ModelStream.endingOf]
      cases hdone : delta.done with
      | true =>
        rw [ModelStream.counted_of_done hdone, List.flatMap_singleton, if_pos rfl]
        rw [hdone] at hpull
        cases htext : delta.text? with
        | none =>
          rw [htext] at hpull
          rw [forward_of_over hpull, List.filterMap_cons_none htext, List.filterMap_nil,
            String.join_nil, String.append_empty]
          rfl
        | some s =>
          rw [htext] at hpull
          let last : Aggregator := ⟨⟨rest, staysOpen⟩, calls.pushAll delta.fragments, true⟩
          have hover : last.pull = (.over, last) := rfl
          rw [forward_of_text hpull, forward_of_over hover, List.filterMap_cons_some htext,
            List.filterMap_nil, String.join_cons, String.join_nil, String.append_empty,
            forwardAll_cons_bind]
          rfl
      | false =>
        rw [ModelStream.counted_of_not_done hdone, List.flatMap_cons, if_neg Bool.false_ne_true]
        rw [hdone] at hpull
        cases htext : delta.text? with
        | none =>
          rw [htext] at hpull
          have hrest : (Aggregator.mk ⟨.ok delta :: rest, staysOpen⟩ calls false).pull =
              (Aggregator.mk ⟨rest, staysOpen⟩ (calls.pushAll delta.fragments) false).pull := hpull
          rw [forward_congr hrest, ih, List.filterMap_cons_none htext, Accumulator.pushAll_append]
        | some s =>
          rw [htext] at hpull
          rw [forward_of_text hpull, ih, List.filterMap_cons_some htext, String.join_cons,
            Accumulator.pushAll_append, String.append_assoc, forwardAll_cons_bind]

/-- Pulling a stream to its end delivers the pieces that count and gives their text and the calls. -/
theorem forward_ofStream (text : String) (stream : ModelStream) :
    forward text (.ofStream stream) =
      forwardAll stream.texts >>= fun _ =>
        atEnd (text ++ String.join stream.texts) stream.calls stream.ending :=
  forward_items stream.staysOpen stream.items text .empty

end Turn

end Colloquy
