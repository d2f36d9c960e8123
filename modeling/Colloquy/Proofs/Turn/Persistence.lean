import Colloquy.Proofs.Turn.Assignment
import Colloquy.Proofs.Turn.Traces
import Mathlib.Data.List.Basic

/-!
# What a turn persists

A turn that ends well has gone through levels that are all complete. Its text and its records grow
along with what is delivered and executed on them, so that the one message that it appends at its
end holds all that was streamed, in order, and the records of all successes.
-/

namespace Colloquy

namespace Level

variable (scope : TurnScope) (turn : Turn) (session : SessionId) (level : Level)

theorem delivered_opening :
    delivered (level.opening scope turn session) = level.stream.texts.map .ok :=
  delivered_pieces level.stream.texts

theorem answers_opening : answers (level.opening scope turn session) = [level.stream] :=
  congrArg (level.stream :: ·) (answers_pieces level.stream.texts)

theorem handling_opening : handling (level.opening scope turn session) = [] :=
  handling_pieces level.stream.texts

theorem replies_opening : replies (level.opening scope turn session) = [] :=
  replies_pieces level.stream.texts

variable {scope : TurnScope} {turn : Turn} {session : SessionId} {level : Level}

theorem Complete.isWork (hlevel : level.Complete scope turn session) :
    ∀ exchange ∈ level.work, exchange.1.isWork :=
  Batch.isWork_of_completed hlevel.completed

theorem Complete.delivered_exchanges (hlevel : level.Complete scope turn session) :
    delivered (level.exchanges scope turn session) = level.stream.texts.map .ok := by
  rw [exchanges, delivered_append, delivered_opening, delivered_of_work hlevel.isWork,
    List.append_nil]

theorem Complete.answers_exchanges (hlevel : level.Complete scope turn session) :
    answers (level.exchanges scope turn session) = [level.stream] := by
  rw [exchanges, answers_append, answers_opening, answers_of_work hlevel.isWork, List.append_nil]

theorem Complete.handling_exchanges (hlevel : level.Complete scope turn session) :
    handling (level.exchanges scope turn session) = level.work := by
  rw [exchanges, handling_append, handling_opening, handling_of_work hlevel.isWork, List.nil_append]

theorem Complete.replies_exchanges (hlevel : level.Complete scope turn session) :
    replies (level.exchanges scope turn session) = [] := by
  rw [exchanges, replies_append, replies_opening, replies_of_work hlevel.isWork, List.append_nil]

end Level

namespace Turn

/-- The records that count as executed in a turn with certain levels: those from before, then those
of each level. -/
def executed (turn : Turn) (levels : List Level) : List ExecutionRecord :=
  turn.carried ++ levels.flatMap (·.batch)

variable {hangs : Effect → Prop} {scope : TurnScope} {turn : Turn} {session : SessionId}

section Levels

variable {levels : List Level} (hall : ∀ level ∈ levels, level.Complete scope turn session)
include hall

private theorem delivered_levels :
    delivered (levels.flatMap (·.exchanges scope turn session)) = (streamed levels).map .ok := by
  rw [delivered, List.filterMap_flatMap, streamed, List.map_flatMap]
  exact List.flatMap_congr fun level hmem => (hall level hmem).delivered_exchanges

private theorem answers_levels :
    answers (levels.flatMap (·.exchanges scope turn session)) = levels.map (·.stream) := by
  rw [answers, List.filterMap_flatMap, List.map_eq_flatMap]
  exact List.flatMap_congr fun level hmem => (hall level hmem).answers_exchanges

private theorem handling_levels :
    handling (levels.flatMap (·.exchanges scope turn session)) = levels.flatMap (·.work) := by
  rw [handling, List.filter_flatMap]
  exact List.flatMap_congr fun level hmem => (hall level hmem).handling_exchanges

private theorem replies_levels :
    replies (levels.flatMap (·.exchanges scope turn session)) = [] := by
  rw [replies, List.filterMap_flatMap]
  exact List.flatMap_eq_nil_iff.mpr fun level hmem => (hall level hmem).replies_exchanges

end Levels

/-- What the exchanges of a turn that ended well come to. -/
structure Persists (scope : TurnScope) (turn : Turn) (session : SessionId) (levels : List Level)
    (capped : Bool) (t : List TurnExchange) : Prop where
  /-- The session is the one that is given, or else one that was opened. -/
  entered : turn.session = some session ∨
    turn.session = none ∧ ∃ title, ⟨.openSession turn.agent.id title, .ok session⟩ ∈ t
  /-- The model answered on each level. -/
  answered : answers t = levels.map (·.stream)
  /-- The calls that the answers make were handled on their levels. -/
  handled : handling t = levels.flatMap (·.work)
  /-- All levels are complete. -/
  complete : ∀ level ∈ levels, level.Complete scope turn session
  /-- The turn went too deep if even the last answer makes calls. -/
  deep : capped = true ↔ ∀ level ∈ levels, level.stream.calls ≠ []
  /-- What was streamed was delivered, and then the notice of a turn that went too deep. -/
  sent : delivered t = (streamed levels ++ closing scope capped).map .ok
  /-- A reply was appended if and only if text was streamed or some record counts as executed. -/
  replied : replies t ≠ [] ↔ (∃ piece ∈ streamed levels, piece ≠ "") ∨ turn.executed levels ≠ []
  /-- It was appended once. -/
  once : (replies t).length ≤ 1
  /-- The reply holds all text that was streamed, the records of all successes, and as many tokens
  as the text has characters, up to the greatest word of 32 bits. -/
  reply : ∀ reply ∈ replies t, reply.1 = session ∧
    reply.2.content = String.join (streamed levels) ∧
    reply.2.toolRecords = (turn.executed levels).filter (·.success) ∧
    reply.2.tokenCount.map UInt32.toNat =
      some (min (String.join (streamed levels)).length (Word.count 32 - 1))

theorem join_eq_empty_iff (pieces : List String) :
    String.join pieces = "" ↔ ∀ piece ∈ pieces, piece = "" := by
  rw [← String.toList_inj, String.toList_join, String.toList_empty, List.flatMap_eq_nil_iff]
  simp only [String.toList_eq_nil_iff]

/-- Exchanges without items, answers of the model, handling of calls and replies. -/
private structure Silent (t : List TurnExchange) : Prop where
  sent : delivered t = []
  answered : answers t = []
  handled : handling t = []
  replied : replies t = []

/-- Up to the message of the person, a turn is silent. -/
private theorem silent_heading {lookup entry : List TurnExchange}
    (hlookup : Assignment.LookedUp lookup) (henter : Entered turn entry session) (id : MessageId) :
    Silent (lookup ++ entry ++ [⟨.append session (.user turn.content), .ok id⟩]) := by
  cases hlookup <;> cases henter <;>
    exact ⟨rfl, rfl, rfl, by simp [replies, Draft.user]⟩

/-- The session of a turn is given, or else opened in its exchanges. -/
theorem Entered.given_or_opened {lookup entry rest : List TurnExchange}
    (henter : Entered turn entry session) :
    turn.session = some session ∨ turn.session = none ∧
      ∃ title, ⟨.openSession turn.agent.id title, .ok session⟩ ∈ lookup ++ entry ++ rest := by
  cases henter with
  | given hsession => exact .inl hsession
  | opened hsession => exact .inr ⟨hsession, some (title turn.content), by simp⟩

/-- The reply of a turn holds its text and its records, if there are any. -/
private theorem Concluded.reply {progress : Progress} {t : List TurnExchange}
    {o : Option (Except Fault Unit)} (hconclude : Concluded session progress t o)
    (ho : o = some (.ok ())) :
    delivered t = [] ∧ answers t = [] ∧ handling t = [] ∧
      (progress.text = "" ∧ progress.records = [] ∧ replies t = [] ∨
        (progress.text ≠ "" ∨ progress.records ≠ []) ∧
          replies t = [(session, answerDraft progress)]) := by
  cases hconclude with
  | nothing htext hrecords => exact ⟨rfl, rfl, rfl, .inl ⟨htext, hrecords, rfl⟩⟩
  | pending => cases ho
  | refused fault => cases ho
  | appended hsome id => exact ⟨rfl, rfl, rfl, .inr ⟨hsome, rfl⟩⟩

private theorem persists_of_parts {heading ending : List TurnExchange} {levels : List Level}
    {capped : Bool} {progress : Progress} (hsilent : Silent heading)
    (hall : ∀ level ∈ levels, level.Complete scope turn session)
    (hcapped : capped = true ↔ ∀ level ∈ levels, level.stream.calls ≠ [])
    (htext : progress.text = String.join (streamed levels))
    (hrecords : progress.records = turn.executed levels)
    (hconclude : Concluded session progress ending (some (.ok ())))
    (hentered : ∀ rest, turn.session = some session ∨ turn.session = none ∧
      ∃ title, ⟨.openSession turn.agent.id title, .ok session⟩ ∈ heading ++ rest) :
    Persists scope turn session levels capped
      (heading ++ (levels.flatMap (·.exchanges scope turn session) ++
        (closing scope capped).map .piece ++ ending)) := by
  obtain ⟨hsent, hanswered, hhandled, hreply⟩ := hconclude.reply rfl
  have hreplies : replies (heading ++ (levels.flatMap (·.exchanges scope turn session) ++
      (closing scope capped).map .piece ++ ending)) = replies ending := by
    simp [hsilent.replied, replies_levels hall]
  have hempty : progress.text = "" ↔ ¬ ∃ piece ∈ streamed levels, piece ≠ "" := by
    rw [htext, join_eq_empty_iff]
    simp
  refine ⟨hentered _, ?_, ?_, hall, hcapped, ?_, ?_, ?_, ?_⟩
  · simp [hsilent.answered, answers_levels hall, hanswered]
  · simp [hsilent.handled, handling_levels hall, hhandled]
  · simp [hsilent.sent, delivered_levels hall, hsent]
  · rw [hreplies, ← hrecords]
    obtain ⟨hnotext, hnorecords, hnone⟩ | ⟨hsome, hone⟩ := hreply
    · have hnothing := hempty.mp hnotext
      simp [hnone, hnorecords, hnothing]
    · rw [Ne, hempty, not_not] at hsome
      exact iff_of_true (by simp [hone]) hsome
  · rw [hreplies]
    obtain ⟨-, -, hnone⟩ | ⟨-, hone⟩ := hreply
    · simp [hnone]
    · simp [hone]
  · rw [hreplies]
    obtain ⟨-, -, hnone⟩ | ⟨-, hone⟩ := hreply
    · simp [hnone]
    · rw [hone, List.forall_mem_singleton]
      refine ⟨rfl, htext, congrArg _ hrecords, ?_⟩
      rw [← htext]
      exact congrArg some (toNat_tokenEstimate progress.text)

/-- A turn that ends well has gone through levels whose text and records it persists. -/
theorem persists_of_performed {lookup t : List TurnExchange}
    {o : Option (Except Fault Unit)} (hlookup : Assignment.LookedUp lookup)
    (hperform : Performed hangs scope turn t o) (ho : o = some (.ok ())) :
    ∃ session levels capped, Persists scope turn session levels capped (lookup ++ t) := by
  cases hperform with
  | outside | noSession | unheard | refused => cases ho
  | @halted _ _ _ _ _ fault => cases fault <;> cases ho
  | @concluded entry t₁ t₂ session henter id progress hloop _ hconclude =>
    subst ho
    obtain ⟨levels, capped, hall, rfl, hcapped, htext, hrecords⟩ := hloop.levels rfl
    refine ⟨session, levels, capped, ?_⟩
    have hparts := persists_of_parts (silent_heading hlookup henter id) hall hcapped
      (htext.trans String.empty_append) hrecords hconclude fun rest => by
        rw [List.append_assoc]
        exact henter.given_or_opened
    simpa only [List.append_assoc, List.singleton_append] using hparts

/-- A turn that ends without a fault appends exactly what it streamed and executed. -/
theorem persists_run {σ : Type} (assignment : Assignment) (scope : TurnScope)
    (host : Program.Host Effect Effect.Answer σ) (s : σ) (turn : Turn)
    (hresolves : assignment.Resolves (assignment.run scope .steady host s).exchanges turn)
    (hended : (assignment.run scope .steady host s).outcome = some ())
    (hfaultless : ∀ fault,
      .error fault ∉ delivered (assignment.run scope .steady host s).exchanges) :
    ∃ session levels capped, Persists scope turn session levels capped
      (assignment.run scope .steady host s).exchanges := by
  obtain ⟨lookup, t, hlookup, ht, hreported⟩ :=
    Assignment.reported_of_resolves (assignment.reported_run scope host s) hresolves
  rw [hended] at hreported
  rw [ht] at hfaultless ⊢
  cases hreported with
  | ended hperform => exact persists_of_performed hlookup hperform rfl
  | @told _ fault =>
    refine absurd ?_ (hfaultless fault)
    simp [delivered, TurnExchange.report]

/-- A host at which nothing fails. Its state are the answers that the model has left; behind them,
the model does not answer. -/
def obliging : Program.Host Effect Effect.Answer (List ModelStream)
  | .findAgent _, streams => some (.ok none, streams)
  | .openSession _ _, streams => some (.ok "session", streams)
  | .append _ _, streams => some (.ok "message", streams)
  | .recentHistory _ _, streams => some (.ok [], streams)
  | .complete _, [] => none
  | .complete _, stream :: streams => some (.ok stream, streams)
  | .invoke _ _, streams => some ((.ok .null, 0), streams)
  | .writeLog _, streams => some (.ok (), streams)
  | .deliver _, streams => some ((), streams)
  | .readClock, streams => some (⟨0, 0⟩, streams)
  | .waitForever, _ => none

/-- A turn over two levels at a host where nothing fails: on the first level, the model calls a
tool. -/
theorem persists_run_obliging :
    let clock : Tool := ⟨"1", "clock", "", .native, true, emptySchemaText⟩
    let prompt : Prompt := ⟨"p", "Be brief.", true⟩
    let turn : Turn := ⟨⟨"a", "A", [prompt], [clock], ⟨"m", 0, none⟩⟩, prompt, "Hello", none, []⟩
    let scope : TurnScope := ⟨.standard, fun _ => true, 3⟩
    let asking : ModelStream :=
      ⟨[.ok ⟨some "Let me see. ", [⟨0, none, some "clock", some ""⟩], true⟩], false⟩
    let answering : ModelStream :=
      ⟨[.ok ⟨some "It is ", [], false⟩, .ok ⟨some "noon.", [], true⟩], false⟩
    ∃ session levels capped, Persists scope turn session levels capped
      ((Assignment.prepared turn).run scope .steady obliging [asking, answering]).exchanges := by
  intro clock prompt turn scope asking answering
  refine persists_run (.prepared turn) scope obliging [asking, answering] turn rfl ?_ ?_
  · decide +kernel
  · have hall : (delivered ((Assignment.prepared turn).run scope .steady obliging
        [asking, answering]).exchanges).all Except.isOk = true := by decide +kernel
    intro fault hmem
    cases List.all_eq_true.mp hall _ hmem

end Turn

end Colloquy
