import Colloquy.Proofs.Completion.Parameters

/-!
# Pull by pull

A reader that is pulled again and again. Of all that arrives in a stream it looks at the items up to
the first one that is final, a delta that says so or a fault, and at all of them when there is none.
The pulls give the pieces of text of these items one by one, then what ended the stream, and from
then on nothing, while what stands behind the final item stays where it is. The calls are made of
the fragments of the same items, those of the final one among them.
-/

namespace Colloquy

namespace ModelStream

/-- Whether nothing behind an item is looked at. -/
def isFinal : StreamItem → Bool
  | .ok delta => delta.done
  | .error _ => true

/-- The items that are looked at: those up to the first final one, which is among them. -/
def read (stream : ModelStream) : List StreamItem :=
  stream.items.takeWhile (!isFinal ·) ++ (stream.items.dropWhile (!isFinal ·)).take 1

/-- The items behind the first final one. -/
def unread (stream : ModelStream) : List StreamItem :=
  (stream.items.dropWhile (!isFinal ·)).drop 1

/-- What the pull behind the last piece of text gives: the fault when the first final item is one,
and otherwise that the stream is over, unless it stays open without a final item. -/
def closing (stream : ModelStream) : Pull :=
  match stream.items.find? isFinal with
  | some (.error fault) => .fault fault
  | some (.ok _) => .over
  | none => if stream.staysOpen then .waiting else .over

/-- What every later pull gives: that the stream is over, unless it is still waited for. -/
def idling (stream : ModelStream) : Pull :=
  if stream.closing = .waiting then .waiting else .over

theorem read_append_unread (stream : ModelStream) :
    stream.read ++ stream.unread = stream.items := by
  rw [read, unread, List.append_assoc, List.take_append_drop, List.takeWhile_append_dropWhile]

section Cons

variable {item : StreamItem} {delta : Delta} {rest : List StreamItem} {staysOpen : Bool}

private theorem read_cons_of_final (h : isFinal item = true) :
    read ⟨item :: rest, staysOpen⟩ = [item] := by
  simp [read, h]

private theorem read_cons_of_not_final (h : isFinal item = false) :
    read ⟨item :: rest, staysOpen⟩ = item :: read ⟨rest, staysOpen⟩ := by
  simp [read, h]

private theorem unread_cons_of_final (h : isFinal item = true) :
    unread ⟨item :: rest, staysOpen⟩ = rest := by
  simp [unread, h]

private theorem unread_cons_of_not_final (h : isFinal item = false) :
    unread ⟨item :: rest, staysOpen⟩ = unread ⟨rest, staysOpen⟩ := by
  simp [unread, h]

private theorem closing_cons_of_done (h : delta.done = true) :
    closing ⟨.ok delta :: rest, staysOpen⟩ = .over := by
  simp [closing, isFinal, h]

private theorem closing_cons_of_not_final (h : isFinal item = false) :
    closing ⟨item :: rest, staysOpen⟩ = closing ⟨rest, staysOpen⟩ := by
  simp [closing, h]

end Cons

/-- The deltas that count are those among the items that are looked at. -/
theorem filterMap_read (stream : ModelStream) :
    stream.read.filterMap Except.toOption = stream.deltas := by
  obtain ⟨items, staysOpen⟩ := stream
  rw [deltas]
  induction items with
  | nil => rfl
  | cons item rest ih =>
    cases item with
    | error fault =>
      rw [read_cons_of_final rfl]
      rfl
    | ok delta =>
      cases hdone : delta.done with
      | true =>
        have hfinal : isFinal (.ok delta) = true := hdone
        rw [read_cons_of_final hfinal, counted_of_done hdone]
        rfl
      | false =>
        have hfinal : isFinal (.ok delta) = false := hdone
        rw [read_cons_of_not_final hfinal, counted_of_not_done hdone]
        exact congrArg (delta :: ·) ih

end ModelStream

namespace Aggregator

/-- What pulls one after another give, and the reader behind them. -/
def pulls : Nat → Aggregator → List Pull × Aggregator
  | 0, reader => ([], reader)
  | n + 1, reader =>
    let (pull, next) := reader.pull
    let (later, last) := pulls n next
    (pull :: later, last)

section Pulls

variable {reader reader' next : Aggregator} {pull idle : Pull}

private theorem pulls_succ (h : reader.pull = (pull, next)) (n : Nat) :
    pulls (n + 1) reader = (pull :: (pulls n next).1, (pulls n next).2) := by
  rw [pulls, h]

private theorem pulls_congr (h : reader.pull = reader'.pull) (n : Nat) :
    pulls (n + 1) reader = pulls (n + 1) reader' := by
  rw [pulls, pulls, h]

/-- A reader that a pull leaves as it is gives the same again and again. -/
private theorem pulls_of_idle (h : reader.pull = (idle, reader)) (n : Nat) :
    pulls n reader = (List.replicate n idle, reader) := by
  induction n with
  | zero => rfl
  | succ n ih => rw [pulls_succ h, ih, List.replicate_succ]

/-- Behind a pull that leaves nothing to look at, every pull gives the same. -/
private theorem pulls_of_last (h : reader.pull = (pull, next)) (hidle : next.pull = (idle, next))
    (n : Nat) : pulls (n + 1) reader = (pull :: List.replicate n idle, next) := by
  rw [pulls_succ h, pulls_of_idle hidle]

end Pulls

section Delta

variable {delta : Delta} {rest : List StreamItem} {staysOpen : Bool} {calls : Accumulator}

private theorem pull_of_text {s : String} (htext : delta.text? = some s) :
    pull ⟨⟨.ok delta :: rest, staysOpen⟩, calls, false⟩ =
      (.text s, ⟨⟨rest, staysOpen⟩, calls.pushAll delta.fragments, delta.done⟩) := by
  simp [pull, pullItems, htext]

private theorem pull_of_done (htext : delta.text? = none) (hdone : delta.done = true) :
    pull ⟨⟨.ok delta :: rest, staysOpen⟩, calls, false⟩ =
      (.over, ⟨⟨rest, staysOpen⟩, calls.pushAll delta.fragments, true⟩) := by
  simp [pull, pullItems, htext, hdone]

private theorem pull_of_not_done (htext : delta.text? = none) (hdone : delta.done = false) :
    pull ⟨⟨.ok delta :: rest, staysOpen⟩, calls, false⟩ =
      pull ⟨⟨rest, staysOpen⟩, calls.pushAll delta.fragments, false⟩ := by
  simp [pull, pullItems, htext, hdone]

end Delta

/-- What the pulls of a stream give to a reader that has already gathered some calls: as many pulls
as there are pieces of text, one more, and any number of later ones. -/
private def Pulled (calls : Accumulator) (stream : ModelStream) : Prop :=
  ∀ more, pulls (more + 1 + stream.texts.length) ⟨stream, calls, false⟩ =
    (stream.texts.map .text ++ stream.closing :: List.replicate more stream.idling,
      ⟨⟨stream.unread, stream.staysOpen⟩,
        calls.pushAll (stream.deltas.flatMap (·.fragments)),
        decide (stream.closing ≠ .waiting)⟩)

section Pulled

variable {delta : Delta} {rest : List StreamItem} {staysOpen : Bool} {calls : Accumulator}

private theorem pulled_nil : Pulled calls ⟨[], staysOpen⟩ := by
  intro more
  cases staysOpen <;> exact pulls_of_last rfl rfl more

private theorem pulled_error {fault : ModelFault} :
    Pulled calls ⟨.error fault :: rest, staysOpen⟩ :=
  fun more => pulls_of_last rfl rfl more

/-- The delta that ends a stream still gives its text and its fragments. -/
private theorem pulled_done (hdone : delta.done = true) :
    Pulled calls ⟨.ok delta :: rest, staysOpen⟩ := by
  intro more
  let last : Aggregator := ⟨⟨rest, staysOpen⟩, calls.pushAll delta.fragments, true⟩
  have hlast : last.pull = (.over, last) := rfl
  have hfinal : ModelStream.isFinal (.ok delta) = true := hdone
  rw [ModelStream.texts, ModelStream.idling, ModelStream.closing_cons_of_done hdone,
    ModelStream.unread_cons_of_final hfinal, ModelStream.deltas,
    ModelStream.counted_of_done hdone, List.flatMap_singleton]
  cases htext : delta.text? with
  | none =>
    rw [List.filterMap_cons_none htext]
    exact pulls_of_last (pull_of_done htext hdone) hlast more
  | some s =>
    have hpull : pull ⟨⟨.ok delta :: rest, staysOpen⟩, calls, false⟩ = (.text s, last) := by
      rw [pull_of_text htext, hdone]
    rw [List.filterMap_cons_some htext, List.filterMap_nil, List.length_singleton,
      pulls_succ hpull, pulls_of_last hlast hlast]
    rfl

/-- A delta that does not end a stream gives its text, and then the rest of the stream follows. -/
private theorem pulled_not_done (hdone : delta.done = false)
    (hrest : Pulled (calls.pushAll delta.fragments) ⟨rest, staysOpen⟩) :
    Pulled calls ⟨.ok delta :: rest, staysOpen⟩ := by
  intro more
  have hfinal : ModelStream.isFinal (.ok delta) = false := hdone
  have hmore := hrest more
  simp only [ModelStream.texts, ModelStream.idling, ModelStream.deltas] at hmore ⊢
  rw [ModelStream.closing_cons_of_not_final hfinal, ModelStream.unread_cons_of_not_final hfinal,
    ModelStream.counted_of_not_done hdone, List.flatMap_cons, Accumulator.pushAll_append]
  cases htext : delta.text? with
  | none =>
    rw [List.filterMap_cons_none htext]
    rw [Nat.add_right_comm] at hmore ⊢
    rw [pulls_congr (pull_of_not_done htext hdone)]
    exact hmore
  | some s =>
    have hpull : pull ⟨⟨.ok delta :: rest, staysOpen⟩, calls, false⟩ =
        (.text s, ⟨⟨rest, staysOpen⟩, calls.pushAll delta.fragments, false⟩) := by
      rw [pull_of_text htext, hdone]
    rw [List.filterMap_cons_some htext, List.length_cons, ← Nat.add_assoc, pulls_succ hpull, hmore]
    rfl

end Pulled

private theorem pulled (items : List StreamItem) (staysOpen : Bool) (calls : Accumulator) :
    Pulled calls ⟨items, staysOpen⟩ := by
  induction items generalizing calls with
  | nil => exact pulled_nil
  | cons item rest ih =>
    cases item with
    | error fault => exact pulled_error
    | ok delta =>
      cases hdone : delta.done with
      | true => exact pulled_done hdone
      | false => exact pulled_not_done hdone (ih _)

/-- A stream is read pull by pull. Of its items, those up to the first final one are looked at. The
pulls give the pieces of text of their deltas that are not empty, one by one and in order, then what
ended the stream, and then always the same, while what stands behind the final item is left. The
calls are those of all fragments of these deltas, one behind the other. -/
theorem pulls_ofStream (stream : ModelStream) (more : Nat) :
    let deltas := stream.read.filterMap Except.toOption
    let texts := deltas.filterMap Delta.text?
    let gathered := Accumulator.empty.pushAll (deltas.flatMap (·.fragments))
    let pulled := (ofStream stream).pulls (texts.length + 1 + more)
    stream.items = stream.read ++ stream.unread ∧
      pulled.1 = texts.map .text ++ stream.closing :: List.replicate more stream.idling ∧
      pulled.2 = ⟨⟨stream.unread, stream.staysOpen⟩, gathered,
        decide (stream.closing ≠ .waiting)⟩ ∧
      pulled.2.finish = gathered.finish := by
  intro deltas texts gathered pulls
  have hdeltas : deltas = stream.deltas := stream.filterMap_read
  have htexts : texts = stream.texts := congrArg (List.filterMap Delta.text?) hdeltas
  have hpulls : pulls = (texts.map .text ++ stream.closing :: List.replicate more stream.idling,
      ⟨⟨stream.unread, stream.staysOpen⟩, gathered, decide (stream.closing ≠ .waiting)⟩) := by
    have hcount : stream.texts.length + 1 + more = more + 1 + stream.texts.length := by omega
    simp only [pulls, gathered, htexts, hdeltas]
    rw [hcount]
    exact pulled stream.items stream.staysOpen .empty more
  rw [hpulls]
  exact ⟨stream.read_append_unread.symm, rfl, rfl, rfl⟩

/-- A delta with text, fragments and the end of the stream at once: its text is the last, its
fragments count, and the items behind it are never looked at. -/
example :
    let stream : ModelStream :=
      ⟨[.ok ⟨some "Let", [⟨1, none, none, some "\x7b"⟩], false⟩, .ok ⟨some "", [], false⟩,
        .ok ⟨some " me", [⟨1, some "c", some "clock", some "\x7d"⟩], true⟩,
        .error (.interrupted "late")], true⟩
    let pulled := (ofStream stream).pulls 5
    pulled.1 = [.text "Let", .text " me", .over, .over, .over] ∧
      pulled.2.finish = [⟨"c", "clock", "\x7b\x7d"⟩] := by
  decide +kernel

end Aggregator

end Colloquy
