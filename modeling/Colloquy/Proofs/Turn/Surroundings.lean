import Colloquy.Completion.Script
import Colloquy.Proofs.Completion.Rechunking
import Colloquy.Proofs.Store.Impartial
import Colloquy.Proofs.Turn.Attended

/-!
# Surroundings of a turn

All that a turn depends on: agents, tools that answer by what they are given, a model that answers by
what it was asked, an impartial store, and from outside the times, the new names and how long the
tools run. Two surroundings may differ in how the model cuts its answers into chunks and in all that
comes from outside. The exchanges with them are alike when nothing else tells them apart.
-/

namespace Colloquy

/-- A record without what the clock and the store give to it. -/
def ExecutionRecord.substance (record : ExecutionRecord) : ExecutionRecord :=
  { record with duration := 0, session := "", executedAt := ⟨0, 0⟩ }

/-- A draft whose records are told without what the clock and the store give to them. -/
def Draft.substance (draft : Draft) : Draft :=
  { draft with toolRecords := draft.toolRecords.map ExecutionRecord.substance }

/-- What goes back to the model depends on the substance of the records. -/
theorem followUp_substance (records : List ExecutionRecord) :
    followUp (records.map ExecutionRecord.substance) = followUp records := by
  rw [followUp, followUp, List.map_map]
  exact congrArg "\n".intercalate (List.map_congr_left fun record _ => rfl)

/-- Answers of a model that differ only in how they are cut into deltas. -/
inductive ModelAnswer.Rechunks : ModelAnswer → ModelAnswer → Prop
  /-- Both are refused in the same way. -/
  | refused (fault : ModelFault) : ModelAnswer.Rechunks (.error fault) (.error fault)
  /-- Both are streams that say the same. -/
  | answered {stream stream' : ModelStream} (h : stream.Rechunks stream') :
    ModelAnswer.Rechunks (.ok stream) (.ok stream')

/-- What surrounds a turn, save for its store. -/
structure Surroundings where
  /-- The agent of an id. -/
  agent : String → Except StoreFault (Option Agent)
  /-- The reply of a tool to parameters, if it ever replies. -/
  reply : Tool → Json.Members → Option Reply
  /-- The answer of the model to the last of some requests. -/
  answer : List CompletionRequest → ModelAnswer
  /-- The time and the new name at a moment. -/
  stamp : Nat → Stamp
  /-- For how many milliseconds a tool runs that is invoked at a moment. -/
  duration : Nat → UInt64

/-- How things stand around a turn at some moment. -/
structure Scene (σ : Type) where
  /-- The store and the log. -/
  store : σ
  /-- The requests that the model got. -/
  requests : List CompletionRequest
  /-- How many effects are over. -/
  moment : Nat

/-- The same scene when one more effect is over. -/
def Scene.later {σ : Type} (scene : Scene σ) : Scene σ :=
  ⟨scene.store, scene.requests, scene.moment + 1⟩

namespace Surroundings

variable {σ : Type} [SessionStore σ]

section Names

variable [ImpartialStore σ]

/-- From some moment on, the names that surroundings give are new for messages. -/
structure NamesMessages (around : Surroundings) (scene : Scene σ) : Prop where
  /-- No name is given twice. -/
  injective : Function.Injective fun moment => (around.stamp moment).name
  /-- The names are new. -/
  isNew : ∀ moment, scene.moment ≤ moment →
    ImpartialStore.NewMessage (around.stamp moment).name scene.store

/-- From some moment on, the names that surroundings give are new for messages and for sessions. -/
structure NamesAll (around : Surroundings) (scene : Scene σ) : Prop extends
    around.NamesMessages scene where
  /-- The names are new for sessions too. -/
  isNewSession : ∀ moment, scene.moment ≤ moment →
    ImpartialStore.NewSession (around.stamp moment).name scene.store

/-- Names that a store takes only one of at a moment go on being new. -/
theorem NamesMessages.later {around : Surroundings} {store store' : σ}
    {requests requests' : List CompletionRequest} {moment : Nat}
    (h : around.NamesMessages ⟨store, requests, moment⟩)
    (hstore : ∀ name, name ≠ (around.stamp moment).name → ImpartialStore.NewMessage name store →
      ImpartialStore.NewMessage name store') :
    around.NamesMessages ⟨store', requests', moment + 1⟩ := by
  refine ⟨h.injective, fun later hlater => hstore _ ?_ (h.isNew later (Nat.le_of_lt hlater))⟩
  intro hname
  exact absurd (h.injective hname) (Nat.ne_of_gt hlater)

theorem NamesAll.later {around : Surroundings} {scene : Scene σ} (h : around.NamesAll scene) :
    around.NamesAll scene.later :=
  ⟨h.toNamesMessages.later fun _ _ hnew => hnew,
    fun later hle => h.isNewSession later (Nat.le_of_succ_le hle)⟩

end Names

variable [ExecutionLog σ]

/-- The answers of surroundings to the effects of a turn. Whatever is delivered is taken. -/
def host (around : Surroundings) : Program.Host Effect Effect.Answer (Scene σ)
  | .findAgent id, ⟨store, requests, moment⟩ =>
    some (around.agent id, ⟨store, requests, moment + 1⟩)
  | .openSession agentId title, ⟨store, requests, moment⟩ =>
    let (answer, store) := SessionStore.openSession (around.stamp moment) agentId title store
    some (answer, ⟨store, requests, moment + 1⟩)
  | .append session draft, ⟨store, requests, moment⟩ =>
    let (answer, store) := SessionStore.append (around.stamp moment) session draft store
    some (answer, ⟨store, requests, moment + 1⟩)
  | .recentHistory session limit, ⟨store, requests, moment⟩ =>
    let answer := SessionStore.recentHistory (around.stamp moment).now session limit store
    some (answer, ⟨store, requests, moment + 1⟩)
  | .complete request, ⟨store, requests, moment⟩ =>
    let asked := requests ++ [request]
    some (around.answer asked, ⟨store, asked, moment + 1⟩)
  | .invoke tool parameters, ⟨store, requests, moment⟩ =>
    (around.reply tool parameters).map fun reply =>
      ((reply, around.duration moment), ⟨store, requests, moment + 1⟩)
  | .writeLog record, ⟨store, requests, moment⟩ =>
    let (answer, store) := ExecutionLog.write record store
    some (answer, ⟨store, requests, moment + 1⟩)
  | .deliver _, ⟨store, requests, moment⟩ => some ((), ⟨store, requests, moment + 1⟩)
  | .readClock, ⟨store, requests, moment⟩ =>
    some ((around.stamp moment).now, ⟨store, requests, moment + 1⟩)
  | .waitForever, _ => none

/-- Surroundings that differ in how the model cuts its answers and in what comes from outside. -/
structure Rechunks (around around' : Surroundings) : Prop where
  /-- The agents are the same. -/
  agent : around.agent = around'.agent
  /-- The tools reply the same. -/
  reply : around.reply = around'.reply
  /-- The model says the same. -/
  answer : ∀ requests, (around.answer requests).Rechunks (around'.answer requests)

end Surroundings

namespace TurnExchange

/-- Exchanges of two turns, of which one goes on in one session and the other in another, that differ
only in times, durations, new names and the chunks of the model's answers. -/
inductive Alike (session session' : SessionId) : TurnExchange → TurnExchange → Prop
  /-- An agent is looked up. -/
  | found (id : String) (answer : Except StoreFault (Option Agent)) :
    Alike session session' ⟨.findAgent id, answer⟩ ⟨.findAgent id, answer⟩
  /-- The sessions are opened. -/
  | opened (agentId : String) (title : Option String) :
    Alike session session' ⟨.openSession agentId title, .ok session⟩
      ⟨.openSession agentId title, .ok session'⟩
  /-- No session is opened. -/
  | unopened (agentId : String) (title : Option String) (fault : StoreFault) :
    Alike session session' ⟨.openSession agentId title, .error fault⟩
      ⟨.openSession agentId title, .error fault⟩
  /-- A message is appended. -/
  | appended {draft draft' : Draft} (h : draft.substance = draft'.substance) (id id' : MessageId) :
    Alike session session' ⟨.append session draft, .ok id⟩ ⟨.append session' draft', .ok id'⟩
  /-- A message is refused. -/
  | refused {draft draft' : Draft} (h : draft.substance = draft'.substance) (fault : StoreFault) :
    Alike session session' ⟨.append session draft, .error fault⟩
      ⟨.append session' draft', .error fault⟩
  /-- The history is read. -/
  | heard (limit : Nat) {answer answer' : Except StoreFault (List Message)}
    (h : answer.map (·.map Message.said) = answer'.map (·.map Message.said)) :
    Alike session session' ⟨.recentHistory session limit, answer⟩
      ⟨.recentHistory session' limit, answer'⟩
  /-- The model is asked. -/
  | asked (request : CompletionRequest) {answer answer' : ModelAnswer} (h : answer.Rechunks answer') :
    Alike session session' ⟨.complete request, answer⟩ ⟨.complete request, answer'⟩
  /-- A tool is invoked. -/
  | invoked (tool : Tool) (parameters : Json.Members) (reply : Reply) (duration duration' : UInt64) :
    Alike session session' ⟨.invoke tool parameters, (reply, duration)⟩
      ⟨.invoke tool parameters, (reply, duration')⟩
  /-- The clock is read. -/
  | dated (now now' : Instant) : Alike session session' ⟨.readClock, now⟩ ⟨.readClock, now'⟩
  /-- A record is written to the log. -/
  | logged {record record' : ExecutionRecord} (h : record.substance = record'.substance)
    (answer answer' : Except StoreFault Unit) :
    Alike session session' ⟨.writeLog record, answer⟩ ⟨.writeLog record', answer'⟩
  /-- A fault is delivered. -/
  | reported (fault : Fault) : Alike session session' (.report fault) (.report fault)

end TurnExchange

/-- The piece of text that an exchange delivers. -/
def TurnExchange.piece? : TurnExchange → Option String
  | ⟨.deliver (.ok piece), _⟩ => some piece
  | _ => none

/-- All text that is delivered in exchanges. -/
def spoken (t : List TurnExchange) : String :=
  String.join (t.filterMap TurnExchange.piece?)

/-- What exchanges do besides delivering text. -/
def acts (t : List TurnExchange) : List TurnExchange :=
  t.filter (·.piece?.isNone)

@[simp]
theorem spoken_append (t t' : List TurnExchange) : spoken (t ++ t') = spoken t ++ spoken t' := by
  rw [spoken, List.filterMap_append, String.join_append, spoken, spoken]

@[simp]
theorem acts_append (t t' : List TurnExchange) : acts (t ++ t') = acts t ++ acts t' :=
  List.filter_append t t'

theorem spoken_pieces (pieces : List String) :
    spoken (pieces.map .piece) = String.join pieces := by
  have hpiece : TurnExchange.piece? ∘ TurnExchange.piece = some := rfl
  rw [spoken, List.filterMap_map, hpiece, List.filterMap_some]

theorem acts_pieces (pieces : List String) : acts (pieces.map .piece) = [] := by
  rw [acts, List.filter_eq_nil_iff]
  intro exchange hmem
  obtain ⟨piece, -, rfl⟩ := List.mem_map.mp hmem
  simp [TurnExchange.piece, TurnExchange.piece?]

end Colloquy
