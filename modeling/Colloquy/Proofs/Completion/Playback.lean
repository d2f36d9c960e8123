import Colloquy.Completion.Script

/-!
# Playing a script

Whoever plays a script holds the model and the streams of its answers, and does three things in any
order: makes a request, receives from a stream, drops a stream. The model only ever sees the
requests: how far it has come in its script is told by their number, whatever becomes of the streams.
A stream gives its response item by item and is then closed, whatever is done to the model and to the
others.
-/

namespace Colloquy

/-- What is done with a scripted model and with the streams of its calls. -/
inductive PlayStep where
  /-- A request is made. -/
  | ask (request : CompletionRequest)
  /-- The next item is received from the stream of a call; calls are numbered from zero. -/
  | receive (call : Nat)
  /-- The stream of a call is dropped. -/
  | drop (call : Nat)

namespace PlayStep

/-- The request that is made. -/
def request? : PlayStep → Option CompletionRequest
  | .ask request => some request
  | _ => none

/-- Whether a step receives from the stream of a call. -/
def receives (call : Nat) : PlayStep → Bool
  | .receive other => other == call
  | _ => false

/-- Whether a step drops the stream of a call. -/
def drops (call : Nat) : PlayStep → Bool
  | .drop other => other == call
  | _ => false

end PlayStep

/-- What is received from a stream. -/
inductive Arrival where
  /-- An item. -/
  | item (item : StreamItem)
  /-- The stream is closed, and nothing comes any more. -/
  | closed
  /-- Nothing comes, and the stream is not closed. -/
  | waiting
  /-- There is no such stream, or no more. -/
  | missing

/-- What is received next from a stream, and the stream behind it. -/
def ModelStream.receive (stream : ModelStream) : Arrival × ModelStream :=
  match stream.items with
  | [] => (if stream.staysOpen then .waiting else .closed, stream)
  | item :: rest => (.item item, ⟨rest, stream.staysOpen⟩)

/-- A scripted model in play. -/
structure Playback where
  /-- The model. -/
  model : ScriptedModel
  /-- The streams of the calls in their order. A call that was refused has none, and neither has one
  whose stream was dropped. -/
  streams : List (Option ModelStream)

namespace Playback

/-- A script of responses before it is played. -/
def ofResponses (responses : List (List Delta)) : Playback :=
  ⟨.ofResponses responses, []⟩

/-- What is received next from the stream of a call. -/
def arrival (playback : Playback) (call : Nat) : Arrival :=
  match playback.streams[call]? with
  | some (some stream) => stream.receive.1
  | _ => .missing

/-- The play behind a step. -/
def step (playback : Playback) : PlayStep → Playback
  | .ask request =>
    let (answer, model) := playback.model.complete request
    ⟨model, playback.streams ++ [answer.toOption]⟩
  | .receive call =>
    { playback with streams := playback.streams.modify call (·.map (·.receive.2)) }
  | .drop call => { playback with streams := playback.streams.set call none }

/-- The play behind some steps. -/
def behind (playback : Playback) (steps : List PlayStep) : Playback :=
  steps.foldl step playback

section Requests

/-- A request takes an answer from the script, if one is left, and is remembered in any case. -/
private theorem model_ask (playback : Playback) (request : CompletionRequest) :
    (playback.step (.ask request)).model =
      ⟨playback.model.answers.drop 1, playback.model.requests ++ [request]⟩ := by
  obtain ⟨⟨_ | ⟨answer, rest⟩, requests⟩, streams⟩ := playback <;> rfl

private theorem length_streams_step (playback : Playback) (step : PlayStep) :
    (playback.step step).streams.length =
      playback.streams.length + step.request?.toList.length := by
  cases step with
  | ask request => exact List.length_append
  | receive call => exact List.length_modify ..
  | drop call => exact List.length_set

/-- What the model has left and what it remembers is told by the requests alone. -/
theorem model_behind (playback : Playback) (steps : List PlayStep) :
    let requests := steps.filterMap PlayStep.request?
    (playback.behind steps).model =
      ⟨playback.model.answers.drop requests.length, playback.model.requests ++ requests⟩ := by
  induction steps generalizing playback with
  | nil => simp [behind]
  | cons step rest ih =>
    refine (ih (playback.step step)).trans ?_
    cases step with
    | ask request =>
      have hrequests : (PlayStep.ask request :: rest).filterMap PlayStep.request? =
          request :: rest.filterMap PlayStep.request? := rfl
      rw [hrequests, model_ask, List.drop_drop, List.length_cons, List.append_assoc, Nat.add_comm,
        List.singleton_append]
    | receive call => rfl
    | drop call => rfl

/-- There is a stream, kept or not, for each request. -/
theorem length_streams_behind (playback : Playback) (steps : List PlayStep) :
    (playback.behind steps).streams.length =
      playback.streams.length + (steps.filterMap PlayStep.request?).length := by
  induction steps generalizing playback with
  | nil => rfl
  | cons step rest ih =>
    refine (ih (playback.step step)).trans ?_
    rw [length_streams_step, Nat.add_assoc, ← List.length_append]
    cases step <;> rfl

end Requests

section Streams

variable {playback : Playback} {call : Nat} {stream : ModelStream}

/-- A stream that is not dropped gives its next item to whoever receives from it, and nothing to
others. -/
private theorem stream_step {step : PlayStep} (hkept : step.drops call = false)
    (hstream : playback.streams[call]? = some (some stream)) :
    (playback.step step).streams[call]? = some (some
      ⟨stream.items.drop (if step.receives call then 1 else 0), stream.staysOpen⟩) := by
  cases step with
  | ask request =>
    have hcall : call < playback.streams.length := (List.getElem?_eq_some_iff.mp hstream).1
    exact (List.getElem?_append_left hcall).trans hstream
  | receive other =>
    refine (List.getElem?_modify ..).trans ?_
    rw [hstream, PlayStep.receives]
    by_cases hsame : other = call
    · obtain ⟨_ | ⟨item, rest⟩, staysOpen⟩ := stream <;> simp [hsame, ModelStream.receive]
    · simp [hsame]
  | drop other =>
    have hother : other ≠ call := by simpa [PlayStep.drops] using hkept
    exact (List.getElem?_set_ne hother).trans hstream

/-- Of a stream that is not dropped, as many items are gone as were received. -/
theorem stream_behind {steps : List PlayStep} (hkept : ∀ step ∈ steps, step.drops call = false)
    (hstream : playback.streams[call]? = some (some stream)) :
    (playback.behind steps).streams[call]? = some (some
      ⟨stream.items.drop (steps.countP (·.receives call)), stream.staysOpen⟩) := by
  induction steps generalizing playback stream with
  | nil => exact hstream
  | cons step rest ih =>
    obtain ⟨hstep, hrest⟩ := List.forall_mem_cons.mp hkept
    refine (ih hrest (stream_step hstep hstream)).trans ?_
    rw [List.drop_drop, List.countP_cons, Nat.add_comm]

/-- What comes next from a stream is its first item, and behind the last one that it is closed. -/
private theorem arrival_of_stream {items : List StreamItem}
    (hstream : playback.streams[call]? = some (some ⟨items, false⟩)) :
    playback.arrival call = items.head?.elim .closed .item := by
  rw [arrival, hstream]
  cases items <;> rfl

end Streams

/-- The next request is answered with the next response of the script. -/
private theorem answer_behind (responses : List (List Delta)) (steps : List PlayStep)
    (request : CompletionRequest) :
    let calls := (steps.filterMap PlayStep.request?).length
    (((ofResponses responses).behind steps).model.complete request).1 =
      match responses[calls]? with
      | some response => .ok ⟨response.map .ok, false⟩
      | none => .error (.exhausted calls) := by
  intro calls
  have hcomplete : ∀ model : ScriptedModel, (model.complete request).1 =
      model.answers.head?.getD (.error (.exhausted model.requests.length)) := by
    rintro ⟨_ | ⟨answer, rest⟩, requests⟩ <;> rfl
  have hmodel : ((ofResponses responses).behind steps).model = _ := model_behind _ steps
  have hanswers : (ofResponses responses).model.answers =
      responses.map fun response => .ok ⟨response.map .ok, false⟩ := rfl
  rw [hcomplete, hmodel, List.head?_drop, hanswers, List.getElem?_map]
  cases responses[calls]? <;> rfl

/-- A script of responses is played once and in order. Behind any steps the model remembers all
requests in their order, those among them that it had no response for, and has as many responses left
as are behind the requests; the next request is answered with the next response, or is refused with
the number of the requests before it. From the stream of a call the deltas of its response are
received one by one, and then that it is closed. The streams that are received from meanwhile, or
dropped, make no difference to any of this. -/
theorem played_in_order (responses : List (List Delta)) (steps : List PlayStep) :
    let requests := steps.filterMap PlayStep.request?
    let played := (ofResponses responses).behind steps
    (played.model.requests = requests ∧ played.model.callCount = requests.length ∧
      played.model.remaining = responses.length - min requests.length responses.length) ∧
      (∀ request, (played.model.complete request).1 =
        match responses[requests.length]? with
        | some response => .ok ⟨response.map .ok, false⟩
        | none => .error (.exhausted requests.length)) ∧
      ∀ before request later, steps = before ++ .ask request :: later →
        let call := (before.filterMap PlayStep.request?).length
        ∀ response, responses[call]? = some response →
          (∀ step ∈ later, step.drops call = false) →
          played.arrival call = match response[later.countP (·.receives call)]? with
            | some delta => .item (.ok delta)
            | none => .closed := by
  intro requests played
  refine ⟨?_, fun request => ?_, ?_⟩
  · have hmodel : played.model = _ := model_behind (ofResponses responses) steps
    have hleft : played.model.remaining = responses.length - requests.length := by
      rw [ScriptedModel.remaining, hmodel, List.length_drop]
      exact congrArg (· - requests.length) (List.length_map _)
    have hasked : played.model.requests = requests := by
      rw [hmodel]
      exact List.nil_append _
    refine ⟨hasked, congrArg List.length hasked, ?_⟩
    omega
  · exact answer_behind responses steps request
  · intro before request later hsteps call response hresponse hkept
    let asked := (ofResponses responses).behind before
    have hanswer : (asked.model.complete request).1 = .ok ⟨response.map .ok, false⟩ :=
      (answer_behind responses before request).trans (by rw [hresponse])
    have hcall : call = asked.streams.length := by
      rw [length_streams_behind]
      exact (Nat.zero_add _).symm
    have hstream : (asked.step (.ask request)).streams[call]? =
        some (some ⟨response.map .ok, false⟩) := by
      have hstreams : (asked.step (.ask request)).streams =
          asked.streams ++ [(asked.model.complete request).1.toOption] := rfl
      rw [hstreams, hanswer, hcall]
      exact List.getElem?_concat_length
    have hplayed : played = (asked.step (.ask request)).behind later := by
      simp only [played, hsteps]
      exact List.foldl_append
    rw [hplayed, arrival_of_stream (stream_behind hkept hstream), List.head?_drop,
      List.getElem?_map]
    cases response[later.countP (·.receives call)]? <;> rfl

/-- The stream of the first call is dropped when one of its two deltas was received, and the only delta
of the second one is received. The second stream is closed then, and a third request is refused. -/
theorem played_in_order_dropped :
    let request : CompletionRequest := ⟨"m", 1, none, "Hi", []⟩
    let later := [.drop 0, .receive 1]
    let steps := [.ask request, .receive 0] ++ .ask request :: later
    let played := (ofResponses [[.ofText "one", .last], [.ofText "two"]]).behind steps
    (∀ step ∈ later, step.drops 1 = false) ∧ played.arrival 1 = .closed ∧
      played.model.requests = [request, request] ∧ played.model.remaining = 0 ∧
      (played.model.complete request).1 = .error (.exhausted 2) := by
  intro request later steps played
  have hkept : ∀ step ∈ later, step.drops 1 = false := by decide
  obtain ⟨⟨hrequests, -, hleft⟩, hnext, harrival⟩ :=
    played_in_order [[.ofText "one", .last], [.ofText "two"]] steps
  exact ⟨hkept, harrival [.ask request, .receive 0] request later rfl _ rfl hkept, hrequests, hleft,
    hnext request⟩

end Playback

end Colloquy
