import Colloquy.Proofs.Completion.Rechunking
import Colloquy.Proofs.Json.Printed
import Colloquy.Tool.Preparation

/-!
# From fragments to parameters

A model writes the parameters of a call as one JSON text, and the text arrives in pieces, between
pieces of other calls and of the answer. Whoever pulls the stream to its end gets one call for each
index that has a name, the calls of lower indices in front of it and those of higher ones behind it,
and the call is prepared with the parameters that the model meant.
-/

namespace Colloquy

namespace Fragment

variable {index : UInt32} {fragments : List Fragment}

/-- What the fragments of an index come to does not change when those of other indices are left
out. -/
theorem gathered_filter {p : UInt32 → Bool} (h : p index = true) :
    gathered index (fragments.filter fun fragment => p fragment.index) =
      gathered index fragments := by
  have hsame : ofIndex index (fragments.filter fun fragment => p fragment.index) =
      ofIndex index fragments := by
    rw [ofIndex, ofIndex, List.filter_filter]
    refine List.filter_congr fun fragment _ => ?_
    by_cases hindex : fragment.index = index
    · simp [hindex, h]
    · simp [hindex]
  simp only [gathered, firstId, firstName, allArguments, hsame]

end Fragment

namespace Accumulator

/-- The fragments of some indices make the calls of these indices. -/
theorem calls_pushAll_filter (p : UInt32 → Bool) (fragments : List Fragment) :
    (empty.pushAll (fragments.filter fun fragment => p fragment.index)).calls =
      (empty.pushAll fragments).calls.filter fun entry => p entry.1 := by
  have hsome := gathers_pushAll (fragments.filter fun fragment => p fragment.index)
  have hall := gathers_pushAll fragments
  refine hsome.ordered.eq_of_mem_iff (hall.ordered.filter _) ?_
  rintro ⟨index, call⟩
  rw [List.mem_filter, hsome.mem_iff, hall.mem_iff]
  constructor
  · rintro ⟨⟨fragment, hmem, rfl⟩, hcall⟩
    obtain ⟨hmem, hp⟩ := List.mem_filter.mp hmem
    exact ⟨⟨⟨fragment, hmem, rfl⟩, hcall.trans (Fragment.gathered_filter hp)⟩, hp⟩
  · rintro ⟨⟨⟨fragment, hmem, rfl⟩, hcall⟩, hp⟩
    exact ⟨⟨fragment, List.mem_filter.mpr ⟨hmem, hp⟩, rfl⟩,
      hcall.trans (Fragment.gathered_filter hp).symm⟩

/-- Calls in order lie around each of them: the ones of lower indices in front of it, the ones of
higher indices behind it. -/
private theorem Ordered.split {calls : List (UInt32 × PartialCall)} (h : Ordered calls)
    {index : UInt32} {call : PartialCall} (hmem : (index, call) ∈ calls) :
    calls = calls.filter (fun entry => decide (entry.1 < index)) ++
      (index, call) :: calls.filter fun entry => decide (index < entry.1) := by
  obtain ⟨before, after, rfl⟩ := List.append_of_mem hmem
  obtain ⟨-, hcall, hacross⟩ := List.pairwise_append.mp h
  have hbefore : ∀ entry ∈ before, entry.1 < index :=
    fun entry hentry => hacross entry hentry _ List.mem_cons_self
  have hafter : ∀ entry ∈ after, index < entry.1 := (List.pairwise_cons.mp hcall).1
  have hlow : before.filter (fun entry => decide (entry.1 < index)) = before :=
    List.filter_eq_self.mpr fun entry hentry => decide_eq_true (hbefore entry hentry)
  have hnotLow : after.filter (fun entry => decide (entry.1 < index)) = [] :=
    List.filter_eq_nil_iff.mpr fun entry hentry =>
      by simpa using UInt32.le_of_lt (hafter entry hentry)
  have hnotHigh : before.filter (fun entry => decide (index < entry.1)) = [] :=
    List.filter_eq_nil_iff.mpr fun entry hentry =>
      by simpa using UInt32.le_of_lt (hbefore entry hentry)
  have hhigh : after.filter (fun entry => decide (index < entry.1)) = after :=
    List.filter_eq_self.mpr fun entry hentry => decide_eq_true (hafter entry hentry)
  simp [hlow, hnotLow, hnotHigh, hhigh]

/-- Among the calls is one of each index that has a name, and the fragments of other indices make the
others. -/
theorem finish_pushAll_split {index : UInt32} {fragments : List Fragment} {name : String}
    (h : Fragment.firstName index fragments = some name) :
    (empty.pushAll fragments).finish =
      (empty.pushAll (fragments.filter fun fragment => decide (fragment.index < index))).finish ++
        ⟨(Fragment.firstId index fragments).getD ("call_" ++ toString index.toNat), name,
          Fragment.allArguments index fragments⟩ ::
        (empty.pushAll (fragments.filter fun fragment => decide (index < fragment.index))).finish := by
  have hgathers := gathers_pushAll fragments
  have hname : (Fragment.gathered index fragments).name = some name := h
  have hmem : (index, Fragment.gathered index fragments) ∈ (empty.pushAll fragments).calls :=
    (hgathers.mem_iff _ _).mpr ⟨Fragment.exists_of_gathered_name (by simp [hname]), rfl⟩
  have hcall : (Fragment.gathered index fragments).finish? index =
      some ⟨(Fragment.firstId index fragments).getD ("call_" ++ toString index.toNat), name,
        Fragment.allArguments index fragments⟩ := by
    rw [PartialCall.finish?, hname]
    rfl
  have hcalls := congrArg (List.filterMap fun entry => PartialCall.finish? entry.1 entry.2)
    (hgathers.ordered.split hmem)
  simp only [List.filterMap_append, List.filterMap_cons, hcall] at hcalls
  rw [finish, finish, finish, calls_pushAll_filter fun i => decide (i < index),
    calls_pushAll_filter fun i => decide (index < i)]
  exact hcalls

end Accumulator

namespace Aggregator

/-- Pulls until there is no more text: what the last pull gives, and the reader behind it. -/
def exhaust (reader : Aggregator) : Pull × Aggregator :=
  match _ : reader.pull with
  | (.text _, next) => next.exhaust
  | (last, next) => (last, next)
termination_by reader.stream.items.length
decreasing_by exact reader.length_lt_of_pull ‹_›

variable {reader next : Aggregator}

private theorem exhaust_of_text {s : String} (h : reader.pull = (.text s, next)) :
    reader.exhaust = next.exhaust := by
  rw [exhaust]
  split
  · next hpull =>
    cases h.symm.trans hpull
    rfl
  · next hnot hpull => exact absurd (h.symm.trans hpull) (by rintro ⟨⟩; exact hnot _ rfl)

private theorem exhaust_of_ne_text {last : Pull} (h : reader.pull = (last, next))
    (hlast : ∀ s, last ≠ .text s) : reader.exhaust = (last, next) := by
  rw [exhaust]
  split
  · next hpull =>
    cases h.symm.trans hpull
    exact absurd rfl (hlast _)
  · next hpull =>
    cases h.symm.trans hpull
    rfl

private theorem exhaust_congr {reader' : Aggregator} (h : reader.pull = reader'.pull) :
    reader.exhaust = reader'.exhaust := by
  rcases hpull : reader'.pull with ⟨pull, next⟩
  rw [hpull] at h
  cases pull with
  | text s => rw [exhaust_of_text h, exhaust_of_text hpull]
  | _ => rw [exhaust_of_ne_text h nofun, exhaust_of_ne_text hpull nofun]

/-- The last pull of a stream that ends in some way. -/
def lastPull : ModelStream.Ending → Pull
  | .closed => .over
  | .fault fault => .fault fault
  | .never => .waiting

/-- Pulling items until there is no more text gathers the calls of the deltas that count. -/
private theorem exhaust_items (staysOpen : Bool) (items : List StreamItem) (calls : Accumulator) :
    let exhausted := exhaust ⟨⟨items, staysOpen⟩, calls, false⟩
    exhausted.1 = lastPull (ModelStream.endingOf staysOpen items) ∧
      exhausted.2.calls = calls.pushAll ((ModelStream.counted items).flatMap (·.fragments)) := by
  induction items generalizing calls with
  | nil =>
    cases staysOpen with
    | true =>
      have hpull : pull ⟨⟨[], true⟩, calls, false⟩ = (.waiting, ⟨⟨[], true⟩, calls, false⟩) := rfl
      rw [exhaust_of_ne_text hpull nofun]
      exact ⟨rfl, rfl⟩
    | false =>
      have hpull : pull ⟨⟨[], false⟩, calls, false⟩ = (.over, ⟨⟨[], false⟩, calls, true⟩) := rfl
      rw [exhaust_of_ne_text hpull nofun]
      exact ⟨rfl, rfl⟩
  | cons item rest ih =>
    cases item with
    | error fault =>
      have hpull : pull ⟨⟨.error fault :: rest, staysOpen⟩, calls, false⟩ =
          (.fault fault, ⟨⟨rest, staysOpen⟩, calls, true⟩) := rfl
      rw [exhaust_of_ne_text hpull nofun]
      exact ⟨rfl, rfl⟩
    | ok delta =>
      have hpull : pull ⟨⟨.ok delta :: rest, staysOpen⟩, calls, false⟩ =
          pullItems staysOpen calls (.ok delta :: rest) := rfl
      rw [pullItems] at hpull
      rw [ModelStream.endingOf]
      cases hdone : delta.done with
      | true =>
        rw [ModelStream.counted_of_done hdone, List.flatMap_singleton, if_pos rfl]
        rw [hdone] at hpull
        cases htext : delta.text? with
        | none =>
          rw [htext] at hpull
          rw [exhaust_of_ne_text hpull nofun]
          exact ⟨rfl, rfl⟩
        | some s =>
          rw [htext] at hpull
          let last : Aggregator := ⟨⟨rest, staysOpen⟩, calls.pushAll delta.fragments, true⟩
          have hover : last.pull = (.over, last) := rfl
          rw [exhaust_of_text hpull, exhaust_of_ne_text hover nofun]
          exact ⟨rfl, rfl⟩
      | false =>
        rw [ModelStream.counted_of_not_done hdone, List.flatMap_cons, if_neg Bool.false_ne_true,
          Accumulator.pushAll_append]
        rw [hdone] at hpull
        cases htext : delta.text? with
        | none =>
          rw [htext] at hpull
          have hrest : pull ⟨⟨.ok delta :: rest, staysOpen⟩, calls, false⟩ =
              pull ⟨⟨rest, staysOpen⟩, calls.pushAll delta.fragments, false⟩ := hpull
          rw [exhaust_congr hrest]
          exact ih _
        | some s =>
          rw [htext] at hpull
          rw [exhaust_of_text hpull]
          exact ih _

/-- A stream that is pulled to its end makes the calls of the deltas that count. -/
theorem exhaust_ofStream (stream : ModelStream) :
    (ofStream stream).exhaust.1 = lastPull stream.ending ∧
      (ofStream stream).exhaust.2.finish = stream.calls := by
  obtain ⟨hlast, hcalls⟩ := exhaust_items stream.staysOpen stream.items .empty
  exact ⟨hlast, congrArg Accumulator.finish hcalls⟩

end Aggregator

/-- The parameters of a call arrive as they were meant, in whatever pieces their text is cut. When a
stream ends in good order, the first name of an index resolves to a tool and the arguments of the
index are the text of an object, then the stream makes one call of the index, with the whole text,
and the call is prepared with the object as its parameters. -/
theorem ModelStream.prepare_arguments {stream : ModelStream} {index : UInt32} {name : String}
    {parameters : Json.Members} {agent : Agent} {tool : Tool} {serves : ToolKind → Bool}
    (hending : stream.ending = .closed)
    (hname : Fragment.firstName index stream.fragments = some name)
    (harguments : Fragment.allArguments index stream.fragments = (Json.record parameters).print)
    (hlegible : (Json.record parameters).Legible) (hordered : (Json.record parameters).Ordered)
    (hdepth : (Json.record parameters).depth ≤ 127)
    (htool : agent.findTool? name = some tool) (hserves : serves tool.kind = true) :
    let id := (Fragment.firstId index stream.fragments).getD ("call_" ++ toString index.toNat)
    let call : ToolCall := ⟨id, name, (Json.record parameters).print⟩
    let below := stream.fragments.filter fun fragment => decide (fragment.index < index)
    let above := stream.fragments.filter fun fragment => decide (index < fragment.index)
    (Aggregator.ofStream stream).exhaust.1 = .over ∧
      (Aggregator.ofStream stream).exhaust.2.finish =
        (Accumulator.empty.pushAll below).finish ++
          call :: (Accumulator.empty.pushAll above).finish ∧
      prepare serves agent call = .ok ⟨tool, parameters⟩ := by
  intro id call below above
  obtain ⟨hover, hcalls⟩ := Aggregator.exhaust_ofStream stream
  have hread : parseArguments (Json.record parameters).print = parameters := by
    rw [parseArguments, Json.read?_print hlegible hordered hdepth]
    rfl
  refine ⟨?_, ?_, ?_⟩
  · rw [hover, hending]
    rfl
  · have hsplit := Accumulator.finish_pushAll_split hname
    rw [harguments] at hsplit
    exact hcalls.trans hsplit
  · unfold prepare
    rw [htool]
    dsimp only
    rw [if_pos hserves, hread]

/-- The arguments of a call in three pieces, one of them empty, between pieces of the answer and of
another call. -/
theorem ModelStream.prepare_arguments_interleaved :
    let weather : Tool := ⟨"1", "get_weather", "", .native, true, emptySchemaText⟩
    let agent : Agent := ⟨"a", "A", [], [weather], ⟨"m", 0, none⟩⟩
    let stream : ModelStream :=
      ⟨[.ok ⟨some "Let me ", [⟨7, none, none, some "\x7b\"city\":\"Os"⟩], false⟩,
        .ok ⟨none, [⟨9, none, some "clock", some ""⟩, ⟨7, some "c", none, some ""⟩], false⟩,
        .ok ⟨some "see.", [⟨7, none, some "get_weather", some "lo\",\"days\":3\x7d"⟩], true⟩,
        .ok ⟨none, [⟨7, none, none, some "too late"⟩], true⟩], true⟩
    let call : ToolCall := ⟨"c", "get_weather", "\x7b\"city\":\"Oslo\",\"days\":3\x7d"⟩
    (Aggregator.ofStream stream).exhaust.1 = .over ∧
      (Aggregator.ofStream stream).exhaust.2.finish = [call, ⟨"call_9", "clock", ""⟩] ∧
      prepare (fun _ => true) agent call =
        .ok ⟨weather, [("city", .text "Oslo"), ("days", .integer 3)]⟩ := by
  intro weather agent stream call
  let parameters : Json.Members := [("city", .text "Oslo"), ("days", .integer 3)]
  let serves : ToolKind → Bool := fun _ => true
  have hname : Fragment.firstName 7 stream.fragments = some "get_weather" := by decide +kernel
  have htext : (Json.record parameters).print = call.arguments := by decide +kernel
  have harguments : Fragment.allArguments 7 stream.fragments = (Json.record parameters).print := by
    decide +kernel
  have hlegible : (Json.record parameters).Legible := ⟨trivial, ⟨by decide, by decide⟩, trivial⟩
  have hordered : (Json.record parameters).Ordered := ⟨by decide, trivial, trivial, trivial⟩
  have htool : agent.findTool? "get_weather" = some weather := by decide +kernel
  have hserves : serves weather.kind = true := rfl
  obtain ⟨hover, hcalls, hprepare⟩ := ModelStream.prepare_arguments rfl hname harguments hlegible
    hordered (by decide) htool hserves
  rw [htext] at hcalls hprepare
  have hothers : (Accumulator.empty.pushAll
      (stream.fragments.filter fun fragment => decide (7 < fragment.index))).finish =
        [⟨"call_9", "clock", ""⟩] := by
    decide +kernel
  rw [hothers] at hcalls
  exact ⟨hover, hcalls, hprepare⟩

end Colloquy
