import Colloquy.Proofs.Turn.Handling
import Colloquy.Proofs.Turn.Reading

/-!
# Turns by rules

What a turn goes through for a listener who stays, as rules instead of a program: one rule for each
way in which a level, the loop over the levels and the turn around it can go on, come to a stand or
fail. Every course of the program goes by the rules, so that whatever is to be shown of all runs of
a turn is shown by an induction over the rules. As for courses, it is known which effects may hang.
-/

namespace Colloquy

/-- What a level that is complete goes through: what it asked, what it was answered and what came of
it. -/
structure Level where
  /-- The content that the model is asked about. -/
  content : String
  /-- The history that the model is shown. -/
  history : List Message
  /-- The answer of the model. -/
  stream : ModelStream
  /-- The exchanges of the batch of calls that the answer makes. -/
  work : List TurnExchange
  /-- The records of the batch. -/
  batch : List ExecutionRecord

namespace Level

/-- The exchanges of a level up to the end of the model's answer. -/
def opening (scope : TurnScope) (turn : Turn) (session : SessionId) (level : Level) :
    List TurnExchange :=
  let settings := scope.settings.effective
  ⟨.recentHistory session settings.historyLimit, .ok level.history⟩ ::
    ⟨.complete (turn.request settings.previewChars level.history level.content),
        .ok level.stream⟩ :: level.stream.texts.map .piece

/-- The exchanges of a level. -/
def exchanges (scope : TurnScope) (turn : Turn) (session : SessionId) (level : Level) :
    List TurnExchange :=
  level.opening scope turn session ++ level.work

/-- A level is complete when the answer ended in good order and its calls were all handled. -/
structure Complete (scope : TurnScope) (turn : Turn) (session : SessionId) (level : Level) :
    Prop where
  /-- The answer ended in good order. -/
  closed : level.stream.ending = .closed
  /-- The calls were handled one after another. -/
  completed : Batch.Completed scope.serves turn.agent session level.stream.calls level.work
    level.batch

end Level

namespace Progress

/-- Progress with the text of a level. -/
def heard (progress : Progress) (level : Level) : Progress :=
  { progress with text := progress.text ++ String.join level.stream.texts }

/-- Progress behind a level whose answer makes calls. -/
def after (progress : Progress) (level : Level) : Progress :=
  ⟨followUp level.batch, progress.text ++ String.join level.stream.texts,
    progress.records ++ level.batch, progress.depth + 1⟩

end Progress

namespace Turn

/-- How a level does not come to the end of the model's answer: it comes to a stand, or fails. -/
inductive Halted (hangs : Effect → Prop) (scope : TurnScope) (turn : Turn) (session : SessionId)
    (content : String) : List TurnExchange → Option Fault → Prop
  /-- It comes to a stand: the history or the model does not answer, an item is not taken, or the
  answer of the model has no end. -/
  | stalled (level : Level) (hcontent : level.content = content) {t : List TurnExchange}
    (hpart : t <+: level.opening scope turn session)
    (hstall : t.length ≤ 1 ∨ (∃ item, hangs (.deliver item)) ∨ level.stream.ending = .never) :
    Halted hangs scope turn session content t none
  /-- The history is refused. -/
  | noHistory (fault : StoreFault) :
    Halted hangs scope turn session content
      [⟨.recentHistory session scope.settings.effective.historyLimit, .error fault⟩]
      (some (.store fault))
  /-- The model refuses to answer. -/
  | noModel (history : List Message) (fault : ModelFault) :
    Halted hangs scope turn session content
      [⟨.recentHistory session scope.settings.effective.historyLimit, .ok history⟩,
        ⟨.complete (turn.request scope.settings.effective.previewChars history content),
          .error fault⟩]
      (some (.model fault))
  /-- The answer breaks off. -/
  | brokenOff (level : Level) (hcontent : level.content = content) {fault : ModelFault}
    (hending : level.stream.ending = .fault fault) :
    Halted hangs scope turn session content (level.opening scope turn session) (some (.model fault))

/-- The loop over the levels from some progress on: how it goes, and how far it gets. -/
inductive Loop (hangs : Effect → Prop) (scope : TurnScope) (turn : Turn) (session : SessionId) :
    Progress → List TurnExchange → Option (Except Fault Progress) → Prop
  /-- It comes to a stand between two levels. -/
  | unseen (progress : Progress) : Loop hangs scope turn session progress [] none
  /-- It went too deep, and a notice says so. -/
  | capped (progress : Progress) (hdepth : scope.settings.effective.maxDepth < progress.depth) :
    Loop hangs scope turn session progress [.piece (depthNotice scope.settings.effective.maxDepth)]
      (some (.ok progress))
  /-- A level does not come to the end of the model's answer. -/
  | halted {progress : Progress} (hdepth : ¬ scope.settings.effective.maxDepth < progress.depth)
    {t : List TurnExchange} {fault : Option Fault}
    (hhalted : Halted hangs scope turn session progress.content t fault) :
    Loop hangs scope turn session progress t (fault.map .error)
  /-- A level comes to a stand among its calls. -/
  | working {progress : Progress} (hdepth : ¬ scope.settings.effective.maxDepth < progress.depth)
    (level : Level) (hcontent : level.content = progress.content)
    (hlevel : level.Complete scope turn session) {t : List TurnExchange}
    (hpart : t <+: level.work) :
    Loop hangs scope turn session progress (level.opening scope turn session ++ t) none
  /-- A level whose answer makes no calls is the last one. -/
  | last {progress : Progress} (hdepth : ¬ scope.settings.effective.maxDepth < progress.depth)
    (level : Level) (hcontent : level.content = progress.content)
    (hlevel : level.Complete scope turn session) (hcalls : level.stream.calls = []) :
    Loop hangs scope turn session progress (level.exchanges scope turn session)
      (some (.ok (progress.heard level)))
  /-- Behind a level whose answer makes calls, the loop goes on. -/
  | level {progress : Progress} (hdepth : ¬ scope.settings.effective.maxDepth < progress.depth)
    (level : Level) (hcontent : level.content = progress.content)
    (hlevel : level.Complete scope turn session) (hcalls : level.stream.calls ≠ [])
    {t : List TurnExchange} {o : Option (Except Fault Progress)}
    (hrest : Loop hangs scope turn session (progress.after level) t o) :
    Loop hangs scope turn session progress (level.exchanges scope turn session ++ t) o

/-- The pieces of text that are streamed on levels. -/
def streamed (levels : List Level) : List String :=
  levels.flatMap (·.stream.texts)

/-- The notice at the end of a turn, if it went too deep. -/
def closing (scope : TurnScope) (capped : Bool) : List String :=
  if capped then [depthNotice scope.settings.effective.maxDepth] else []

/-- How a turn comes to its session. -/
inductive Entered (turn : Turn) : List TurnExchange → SessionId → Prop
  /-- The session is given. -/
  | given {session : SessionId} (hsession : turn.session = some session) : Entered turn [] session
  /-- A session is opened. -/
  | opened (hsession : turn.session = none) (session : SessionId) :
    Entered turn [⟨.openSession turn.agent.id (some (title turn.content)), .ok session⟩] session

/-- The message that a turn appends at its end. -/
def answerDraft (progress : Progress) : Draft :=
  .assistant progress.text (progress.records.filter (·.success))

/-- How a turn ends behind its levels. -/
inductive Concluded (session : SessionId) (progress : Progress) :
    List TurnExchange → Option (Except Fault Unit) → Prop
  /-- There is nothing to append. -/
  | nothing (htext : progress.text = "") (hrecords : progress.records = []) :
    Concluded session progress [] (some (.ok ()))
  /-- The message is not appended yet. -/
  | pending : Concluded session progress [] none
  /-- The message is refused. -/
  | refused (fault : StoreFault) :
    Concluded session progress [⟨.append session (answerDraft progress), .error fault⟩]
      (some (.error (.store fault)))
  /-- The message is appended. -/
  | appended (hsome : progress.text ≠ "" ∨ progress.records ≠ []) (id : MessageId) :
    Concluded session progress [⟨.append session (answerDraft progress), .ok id⟩] (some (.ok ()))

/-- The progress of a turn before its first level. -/
def start (turn : Turn) : Progress :=
  ⟨turn.content, "", turn.carried, 1⟩

/-- What a turn goes through, and whether it comes to a stand, fails or ends. -/
inductive Performed (hangs : Effect → Prop) (scope : TurnScope) (turn : Turn) :
    List TurnExchange → Option (Except Fault Unit) → Prop
  /-- No session is opened yet. -/
  | outside (hsession : turn.session = none) : Performed hangs scope turn [] none
  /-- No session can be opened. -/
  | noSession (hsession : turn.session = none) (fault : StoreFault) :
    Performed hangs scope turn
      [⟨.openSession turn.agent.id (some (title turn.content)), .error fault⟩]
      (some (.error (.store fault)))
  /-- The message of the person is not appended yet. -/
  | unheard {t : List TurnExchange} {session : SessionId} (henter : Entered turn t session) :
    Performed hangs scope turn t none
  /-- The message of the person is refused. -/
  | refused {t : List TurnExchange} {session : SessionId} (henter : Entered turn t session)
    (fault : StoreFault) :
    Performed hangs scope turn (t ++ [⟨.append session (.user turn.content), .error fault⟩])
      (some (.error (.store fault)))
  /-- The levels come to a stand or fail. -/
  | halted {t t' : List TurnExchange} {session : SessionId} (henter : Entered turn t session)
    (id : MessageId) {fault : Option Fault}
    (hloop : Loop hangs scope turn session turn.start t' (fault.map .error)) :
    Performed hangs scope turn (t ++ ⟨.append session (.user turn.content), .ok id⟩ :: t')
      (fault.map .error)
  /-- The levels come to their end, and the turn behind them as it may. -/
  | concluded {t t₁ t₂ : List TurnExchange} {session : SessionId} (henter : Entered turn t session)
    (id : MessageId) {progress : Progress}
    (hloop : Loop hangs scope turn session turn.start t₁ (some (.ok progress)))
    {o : Option (Except Fault Unit)} (hconclude : Concluded session progress t₂ o) :
    Performed hangs scope turn (t ++ ⟨.append session (.user turn.content), .ok id⟩ :: (t₁ ++ t₂)) o

variable {hangs : Effect → Prop} {scope : TurnScope} {turn : Turn} {session : SessionId}

/-- A loop that comes to its end has gone through complete levels, and its text and records have
grown by theirs. It went too deep if even the last of them makes calls. -/
theorem Loop.levels {progress last : Progress} {t : List TurnExchange}
    {o : Option (Except Fault Progress)} (hloop : Loop hangs scope turn session progress t o)
    (ho : o = some (.ok last)) :
    ∃ levels capped, (∀ level ∈ levels, level.Complete scope turn session) ∧
      t = levels.flatMap (·.exchanges scope turn session) ++ (closing scope capped).map .piece ∧
      (capped = true ↔ ∀ level ∈ levels, level.stream.calls ≠ []) ∧
      last.text = progress.text ++ String.join (streamed levels) ∧
      last.records = progress.records ++ levels.flatMap (·.batch) := by
  induction hloop with
  | unseen | working => cases ho
  | capped progress hdepth =>
    cases ho
    exact ⟨[], true, by simp, rfl, by simp, by simp [streamed], by simp⟩
  | @halted _ _ _ fault => cases fault <;> cases ho
  | @last progress _ level _ hlevel hcalls =>
    cases ho
    have hcompleted := hlevel.completed
    rw [hcalls] at hcompleted
    obtain ⟨-, hnone⟩ := hcompleted.of_nil
    refine ⟨[level], false, by simpa using hlevel, by simp [closing], by simp [hcalls], ?_, ?_⟩
    · simp [streamed, Progress.heard]
    · simp [hnone, Progress.heard]
  | @level progress _ level _ hlevel hcalls _ _ _ ih =>
    obtain ⟨levels, capped, hall, rfl, hcapped, htext, hrecords⟩ := ih ho
    refine ⟨level :: levels, capped, ?_, ?_, ?_, ?_, ?_⟩
    · simpa using ⟨hlevel, hall⟩
    · rw [List.flatMap_cons, List.append_assoc]
    · simp [hcapped, hcalls]
    · simp [htext, streamed, Progress.after, String.append_assoc]
    · simp [hrecords, Progress.after]

private theorem goes_forwardAll (pieces : List String) :
    (forwardAll pieces).Goes hangs
      (fun t fault => t <+: pieces.map .piece ∧ fault = none ∧ ∃ item, hangs (.deliver item))
      (fun t _ => t = pieces.map .piece) := by
  induction pieces with
  | nil =>
    intro t o h
    obtain ⟨rfl, rfl⟩ := (Heedful.course_pure_iff _ _ _).mp h
    exact .inr ⟨(), rfl, rfl⟩
  | cons piece pieces ih =>
    intro t o h
    rw [forwardAll, Heedful.course_await_bind_iff, Heedful.course_say_bind_iff] at h
    obtain ⟨hhangs, rfl, rfl⟩ | ⟨t, rfl, h⟩ := h
    · exact .inl ⟨none, ⟨List.nil_prefix, rfl, _, hhangs⟩, rfl⟩
    obtain ⟨_, ⟨hpart, rfl, hhangs⟩, rfl⟩ | ⟨_, rfl, rfl⟩ := ih t o h
    · exact .inl ⟨none, ⟨(List.prefix_cons_inj _).mpr hpart, rfl, hhangs⟩, rfl⟩
    · exact .inr ⟨(), rfl, rfl⟩

/-- A stream is delivered up to its end, or to where it comes to a stand or breaks off. -/
private theorem goes_forward (text : String) (stream : ModelStream) :
    (forward text (.ofStream stream)).Goes hangs
      (fun t fault => t <+: stream.texts.map .piece ∧ fault = none ∧
          ((∃ item, hangs (.deliver item)) ∨ stream.ending = .never) ∨
        ∃ f, stream.ending = .fault f ∧ t = stream.texts.map .piece ∧ fault = some (.model f))
      (fun t result => t = stream.texts.map .piece ∧ stream.ending = .closed ∧
        result = (text ++ String.join stream.texts, stream.calls)) := by
  intro t o hcourse
  rw [forward_ofStream] at hcourse
  obtain ⟨_, ⟨hpart, rfl, hhangs⟩, rfl⟩ | ⟨_, t₁, t₂, rfl, rfl, h⟩ :=
    (goes_forwardAll stream.texts).bind hcourse
  · exact .inl ⟨none, .inl ⟨hpart, rfl, .inl hhangs⟩, rfl⟩
  cases hending : stream.ending with
  | closed =>
    rw [hending] at h
    obtain ⟨rfl, rfl⟩ := (Program.course_done_iff _ _ _).mp h
    exact .inr ⟨_, ⟨List.append_nil _, rfl, rfl⟩, rfl⟩
  | fault fault =>
    rw [hending, atEnd, Heedful.course_await_bind_iff] at h
    obtain ⟨rfl, rfl⟩ := (Heedful.course_throw_iff _ _ _).mp h
    exact .inl ⟨_, .inr ⟨fault, rfl, List.append_nil _, rfl⟩, rfl⟩
  | never =>
    rw [hending] at h
    obtain ⟨-, rfl, rfl⟩ := (Heedful.course_waitForever_iff _ _).mp h
    rw [List.append_nil]
    exact .inl ⟨none, .inl ⟨List.prefix_rfl, rfl, .inr rfl⟩, rfl⟩

/-- A level gets to the end of the model's answer, or comes to a stand or fails before it. -/
private theorem goes_answer (content text : String) :
    (answer scope.settings.effective turn session content text).Goes hangs
      (Halted hangs scope turn session content)
      (fun t result => ∃ history stream, stream.ending = .closed ∧
        t = Level.opening scope turn session ⟨content, history, stream, [], []⟩ ∧
          result = (text ++ String.join stream.texts, stream.calls)) := by
  intro t o hcourse
  rw [answer, Heedful.course_recentHistory_bind_iff] at hcourse
  obtain ⟨-, rfl, rfl⟩ | ⟨fault, rfl, rfl⟩ | ⟨history, t, rfl, h⟩ := hcourse
  · let level : Level := ⟨content, [], ⟨[], false⟩, [], []⟩
    exact .inl ⟨none, .stalled level rfl List.nil_prefix (.inl (Nat.zero_le 1)), rfl⟩
  · exact .inl ⟨_, .noHistory fault, rfl⟩
  rw [Heedful.course_complete_bind_iff] at h
  obtain ⟨-, rfl, rfl⟩ | ⟨fault, rfl, rfl⟩ | ⟨stream, t, rfl, hforward⟩ := h
  · let level : Level := ⟨content, history, ⟨[], false⟩, [], []⟩
    exact .inl ⟨none, .stalled level rfl ⟨_, rfl⟩ (.inl (Nat.le_refl 1)), rfl⟩
  · exact .inl ⟨_, .noModel history fault, rfl⟩
  let level : Level := ⟨content, history, stream, [], []⟩
  obtain ⟨fault, hhalts, rfl⟩ | ⟨result, ⟨rfl, hending, hresult⟩, rfl⟩ :=
    goes_forward text stream t o hforward
  · refine .inl ⟨fault, ?_, rfl⟩
    obtain ⟨hpart, rfl, hstall⟩ | ⟨f, hending, rfl, rfl⟩ := hhalts
    · exact .stalled level rfl ((List.prefix_append_right_inj [_, _]).mpr hpart) (.inr hstall)
    · exact .brokenOff level rfl hending
  · exact .inr ⟨result, ⟨history, stream, hending, rfl, hresult⟩, rfl⟩

/-- A batch is handled by the rules, or comes to a stand on the way. -/
private theorem goes_batch (calls : List ToolCall) :
    (Heedful.guard (Batch.calls scope.serves turn.agent session calls)).Goes hangs
      (fun t fault => fault = none ∧ ∃ work records,
        Batch.Completed scope.serves turn.agent session calls work records ∧ t <+: work)
      (Batch.Completed scope.serves turn.agent session calls) := by
  intro t o h
  obtain ⟨o', ho, rfl⟩ := (Heedful.course_guard_iff _ _ _).mp h
  obtain ⟨work, records, hdone, hpart, rfl | ⟨rfl, rfl⟩⟩ := Batch.completed_of_course ho
  · exact .inl ⟨none, ⟨rfl, work, records, hdone, hpart⟩, rfl⟩
  · exact .inr ⟨records, hdone, rfl⟩

/-- The program of the levels goes by the rules of the loop, however many levels are looked at. -/
theorem goes_levels (horizon : Nat) (progress : Progress) :
    (levels scope turn session horizon progress).Goes hangs
      (fun t fault => Loop hangs scope turn session progress t (fault.map .error))
      (fun t last => Loop hangs scope turn session progress t (some (.ok last))) := by
  induction horizon generalizing progress with
  | zero =>
    intro t o h
    obtain ⟨-, rfl, rfl⟩ := (Heedful.course_waitForever_iff _ _).mp h
    exact .inl ⟨none, .unseen progress, rfl⟩
  | succ horizon ih =>
    intro t o hcourse
    rw [levels] at hcourse
    split at hcourse
    · next hdepth =>
      rw [Heedful.course_say_bind_iff] at hcourse
      obtain ⟨-, rfl, rfl⟩ | ⟨t, rfl, h⟩ := hcourse
      · exact .inl ⟨none, .unseen progress, rfl⟩
      · obtain ⟨rfl, rfl⟩ := (Heedful.course_pure_iff _ _ _).mp h
        exact .inr ⟨progress, .capped progress hdepth, rfl⟩
    next hdepth =>
    obtain ⟨fault, hhalted, rfl⟩ | ⟨_, t₁, t, ⟨history, stream, hending, rfl, rfl⟩, rfl, h⟩ :=
      (goes_answer progress.content progress.text).bind hcourse
    · exact .inl ⟨fault, .halted hdepth hhalted, rfl⟩
    dsimp only at h
    let level (work : List TurnExchange) (batch : List ExecutionRecord) : Level :=
      ⟨progress.content, history, stream, work, batch⟩
    split at h
    · next hcalls =>
      obtain ⟨rfl, rfl⟩ := (Heedful.course_pure_iff _ _ _).mp h
      have hnone : stream.calls = [] := List.isEmpty_iff.mp hcalls
      exact .inr ⟨_, .last hdepth (level [] []) rfl ⟨hending, hnone ▸ .nil⟩ hnone, rfl⟩
    next hcalls =>
    have hsome : stream.calls ≠ [] := fun hnone => hcalls (List.isEmpty_iff.mpr hnone)
    obtain ⟨_, ⟨rfl, work, batch, hdone, hpart⟩, rfl⟩ | ⟨batch, work, t, hdone, rfl, hnext⟩ :=
      (goes_batch stream.calls).bind h
    · exact .inl ⟨none, .working hdepth (level work batch) rfl ⟨hending, hdone⟩ hpart, rfl⟩
    have hgo {o'}
        (hrest : Loop hangs scope turn session (progress.after (level work batch)) t o') :=
      Loop.level hdepth (level work batch) rfl ⟨hending, hdone⟩ hsome hrest
    rw [← List.append_assoc]
    obtain ⟨fault, hrest, rfl⟩ | ⟨last, hrest, rfl⟩ := ih _ t o hnext
    · exact .inl ⟨fault, hgo hrest, rfl⟩
    · exact .inr ⟨last, hgo hrest, rfl⟩

private theorem goes_enter :
    turn.enter.Goes hangs
      (fun t fault => turn.session = none ∧
        (t = [] ∧ fault = none ∨ ∃ f, fault = some (.store f) ∧
          t = [⟨.openSession turn.agent.id (some (title turn.content)), .error f⟩]))
      (Entered turn) := by
  intro t o hcourse
  rw [enter] at hcourse
  split at hcourse
  · next session hsession =>
    obtain ⟨rfl, rfl⟩ := (Heedful.course_pure_iff _ _ _).mp hcourse
    exact .inr ⟨session, .given hsession, rfl⟩
  · next hsession =>
    rw [← bind_pure (Heedful.ofAttempt _), Heedful.course_openSession_bind_iff] at hcourse
    obtain ⟨-, rfl, rfl⟩ | ⟨fault, rfl, rfl⟩ | ⟨session, t, rfl, h⟩ := hcourse
    · exact .inl ⟨none, ⟨hsession, .inl ⟨rfl, rfl⟩⟩, rfl⟩
    · exact .inl ⟨_, ⟨hsession, .inr ⟨fault, rfl, rfl⟩⟩, rfl⟩
    · obtain ⟨rfl, rfl⟩ := (Heedful.course_pure_iff _ _ _).mp h
      exact .inr ⟨session, .opened hsession session, rfl⟩

private theorem goes_conclude (progress : Progress) :
    (conclude session progress).Goes hangs
      (fun t fault => Concluded session progress t (fault.map .error))
      (fun t _ => Concluded session progress t (some (.ok ()))) := by
  intro t o hcourse
  rw [conclude] at hcourse
  split at hcourse
  · next hsome =>
    have hsome : progress.text ≠ "" ∨ progress.records ≠ [] := by
      simpa [String.isEmpty_iff] using hsome
    rw [Heedful.course_append_bind_iff] at hcourse
    obtain ⟨-, rfl, rfl⟩ | ⟨fault, rfl, rfl⟩ | ⟨id, t, rfl, h⟩ := hcourse
    · exact .inl ⟨none, .pending, rfl⟩
    · exact .inl ⟨some (.store fault), .refused fault, rfl⟩
    · obtain ⟨rfl, rfl⟩ := (Heedful.course_pure_iff _ _ _).mp h
      exact .inr ⟨(), .appended hsome id, rfl⟩
  · next hnone =>
    have hnone : progress.text = "" ∧ progress.records = [] := by
      simpa [String.isEmpty_iff] using hnone
    obtain ⟨rfl, rfl⟩ := (Heedful.course_pure_iff _ _ _).mp hcourse
    exact .inr ⟨(), .nothing hnone.1 hnone.2, rfl⟩

/-- A turn goes by the rules. -/
theorem goes_perform (scope : TurnScope) (turn : Turn) : (turn.perform scope).Goes hangs
    (fun t fault => Performed hangs scope turn t (fault.map .error))
    (fun t _ => Performed hangs scope turn t (some (.ok ()))) := by
  intro t o hcourse
  rw [perform] at hcourse
  obtain ⟨_, ⟨hsession, ⟨rfl, rfl⟩ | ⟨fault, rfl, rfl⟩⟩, rfl⟩ |
      ⟨session, t₀, t, henter, rfl, happend⟩ := goes_enter.bind hcourse
  · exact .inl ⟨none, .outside hsession, rfl⟩
  · exact .inl ⟨some (.store fault), .noSession hsession fault, rfl⟩
  rw [Heedful.course_append_bind_iff] at happend
  obtain ⟨-, rfl, rfl⟩ | ⟨fault, rfl, rfl⟩ | ⟨id, t, rfl, hlevels⟩ := happend
  · rw [List.append_nil]
    exact .inl ⟨none, .unheard henter, rfl⟩
  · exact .inl ⟨some (.store fault), .refused henter fault, rfl⟩
  obtain ⟨fault, hloop, rfl⟩ | ⟨progress, t₁, t₂, hloop, rfl, hconclude⟩ :=
    (goes_levels scope.horizon turn.start).bind hlevels
  · exact .inl ⟨fault, .halted henter id hloop, rfl⟩
  obtain ⟨fault, hend, rfl⟩ | ⟨_, hend, rfl⟩ := goes_conclude progress t₂ o hconclude
  · exact .inl ⟨fault, .concluded henter id hloop hend, rfl⟩
  · exact .inr ⟨(), .concluded henter id hloop hend, rfl⟩

end Turn

namespace TurnRequest

/-- A request comes to a turn if there is an agent with an active prompt. The turn is made of these
and of what the request has. -/
theorem turnOf_eq_ok_iff {request : TurnRequest} {found : Option Agent} {turn : Turn} :
    request.turnOf found = .ok turn ↔ ∃ agent prompt, found = some agent ∧
      agent.activePrompt? = some prompt ∧
      turn = ⟨agent, prompt, request.content, request.session, []⟩ := by
  constructor
  · intro h
    cases found with
    | none => cases h
    | some agent =>
      rw [turnOf] at h
      cases hprompt : agent.activePrompt? with
      | none => simp [hprompt] at h
      | some prompt =>
        rw [hprompt] at h
        cases h
        exact ⟨agent, prompt, rfl, hprompt, rfl⟩
  · rintro ⟨agent, prompt, rfl, hprompt, rfl⟩
    rw [turnOf, hprompt]

/-- How a request is turned away: the notice is not delivered yet, or it is. -/
inductive TurnedAway (rejection : Rejection) : List TurnExchange → Option (Except Fault Unit) → Prop
  | pending : TurnedAway rejection [] none
  | noticed : TurnedAway rejection [.piece (notice rejection.message)] (some (.ok ()))

/-- What a request goes through, and whether it comes to a stand, fails or ends. -/
inductive Performed (hangs : Effect → Prop) (scope : TurnScope) (request : TurnRequest) :
    List TurnExchange → Option (Except Fault Unit) → Prop
  /-- Something is missing in it. -/
  | incomplete {rejection : Rejection} (haddressee : request.addressee = .error rejection)
    {t : List TurnExchange} {o : Option (Except Fault Unit)} (haway : TurnedAway rejection t o) :
    Performed hangs scope request t o
  /-- Its agent is not found yet. -/
  | unseen {id : String} (haddressee : request.addressee = .ok id) : Performed hangs scope request
    [] none
  /-- The directory fails. -/
  | noDirectory {id : String} (haddressee : request.addressee = .ok id) (fault : StoreFault) :
    Performed hangs scope request [⟨.findAgent id, .error fault⟩] (some (.error (.store fault)))
  /-- There is no turn for what the directory says. -/
  | unresolved {id : String} (haddressee : request.addressee = .ok id) {agent : Option Agent}
    {rejection : Rejection} (hturn : request.turnOf agent = .error rejection)
    {t : List TurnExchange} {o : Option (Except Fault Unit)} (haway : TurnedAway rejection t o) :
    Performed hangs scope request (⟨.findAgent id, .ok agent⟩ :: t) o
  /-- Its turn is performed. -/
  | resolved {id : String} (haddressee : request.addressee = .ok id) {agent : Option Agent}
    {turn : Turn} (hturn : request.turnOf agent = .ok turn) {t : List TurnExchange}
    {o : Option (Except Fault Unit)} (hperform : turn.Performed hangs scope t o) :
    Performed hangs scope request (⟨.findAgent id, .ok agent⟩ :: t) o

private theorem goes_say (rejection : Rejection) :
    (Heedful.say (notice rejection.message)).Goes hangs
    (fun t fault => TurnedAway rejection t (fault.map .error))
    (fun t _ => TurnedAway rejection t (some (.ok ()))) := by
  intro t o hcourse
  rw [← bind_pure (Heedful.say _), Heedful.course_say_bind_iff] at hcourse
  obtain ⟨-, rfl, rfl⟩ | ⟨t, rfl, h⟩ := hcourse
  · exact .inl ⟨none, .pending, rfl⟩
  · obtain ⟨rfl, rfl⟩ := (Heedful.course_pure_iff _ _ _).mp h
    exact .inr ⟨(), .noticed, rfl⟩

/-- A request goes by the rules. -/
theorem goes_perform (scope : TurnScope) (request : TurnRequest) :
    (request.perform scope).Goes hangs
    (fun t fault => Performed hangs scope request t (fault.map .error))
    (fun t _ => Performed hangs scope request t (some (.ok ()))) := by
  intro t o hcourse
  rw [perform, resolve] at hcourse
  cases haddressee : request.addressee with
  | error rejection =>
    rw [haddressee, pure_bind] at hcourse
    obtain ⟨fault, haway, rfl⟩ | ⟨_, haway, rfl⟩ := goes_say rejection t o hcourse
    · exact .inl ⟨fault, .incomplete haddressee haway, rfl⟩
    · exact .inr ⟨(), .incomplete haddressee haway, rfl⟩
  | ok id =>
    rw [haddressee, bind_assoc, Heedful.course_findAgent_bind_iff] at hcourse
    obtain ⟨-, rfl, rfl⟩ | ⟨fault, rfl, rfl⟩ | ⟨agent, t, rfl, h⟩ := hcourse
    · exact .inl ⟨none, .unseen haddressee, rfl⟩
    · exact .inl ⟨some (.store fault), .noDirectory haddressee fault, rfl⟩
    rw [pure_bind] at h
    cases hturn : request.turnOf agent with
    | error rejection =>
      rw [hturn] at h
      obtain ⟨fault, haway, rfl⟩ | ⟨_, haway, rfl⟩ := goes_say rejection t o h
      · exact .inl ⟨fault, .unresolved haddressee hturn haway, rfl⟩
      · exact .inr ⟨(), .unresolved haddressee hturn haway, rfl⟩
    | ok turn =>
      rw [hturn] at h
      obtain ⟨fault, hperform, rfl⟩ | ⟨_, hperform, rfl⟩ := Turn.goes_perform scope turn t o h
      · exact .inl ⟨fault, .resolved haddressee hturn hperform, rfl⟩
      · exact .inr ⟨(), .resolved haddressee hturn hperform, rfl⟩

end TurnRequest

end Colloquy
