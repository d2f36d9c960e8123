import Colloquy.Proofs.Attempts
import Colloquy.Store
import Mathlib.Data.List.Perm.Basic
import Mathlib.Data.List.Nodup

/-!
# Ledgers of sessions

A store may be asked to open sessions, to append to them, and for what it holds. Told without times
and names of messages, its answers are those of a ledger: a list of sessions with their drafts, in
which an opened session comes first and an appended one is moved to the front. Stores differ only in
what becomes of a draft that is read back.

The names of the sessions mean nothing to a ledger: when all of them are replaced by others, so are
those in the answers.
-/

namespace Colloquy

section Calls

/-- What a store may be asked. -/
inductive StoreCall where
  /-- To open a session with an agent. -/
  | openSession (agentId : String) (title : Option String)
  /-- To append a draft to a session. -/
  | append (session : SessionId) (draft : Draft)
  /-- For the last messages of a session. -/
  | recentHistory (session : SessionId) (limit : Nat)
  /-- For a session. -/
  | session? (session : SessionId)
  /-- For the sessions of one agent or of all. -/
  | sessions (agentId : Option String)

/-- A session without its times. -/
structure SessionCard where
  /-- The name of the session. -/
  id : SessionId
  /-- The agent. -/
  agentId : String
  /-- What the session is about. -/
  title : Option String
  deriving DecidableEq, Repr

/-- The session without its times. -/
def Session.card (session : Session) : SessionCard :=
  ⟨session.id, session.agentId, session.title⟩

/-- The message without its name and its time. -/
def Message.placed (message : Message) : SessionId × Draft :=
  (message.session, message.draft)

/-- What a store answers, without times and names of messages. -/
inductive StoreAnswer where
  /-- A session was opened under a name. -/
  | opened (session : SessionId)
  /-- A message was taken. -/
  | taken
  /-- The last messages, the oldest of them first. -/
  | history (messages : List (SessionId × Draft))
  /-- The session, if it is there. -/
  | card (found : Option SessionCard)
  /-- The sessions, the one that was last used first. -/
  | cards (found : List SessionCard)

namespace StoreAnswer

/-- The drafts of an answer. -/
def drafts : StoreAnswer → List Draft
  | .history messages => messages.map (·.2)
  | _ => []

/-- The answer with each draft as it is read back, unless one cannot be. -/
def readWith (readBack : Draft → Except StoreFault Draft) :
    StoreAnswer → Except StoreFault StoreAnswer
  | .history messages =>
    (messages.mapM fun message => (readBack message.2).map (message.1, ·)).map .history
  | answer => .ok answer

/-- An answer stays the same if its drafts do. -/
theorem readWith_eq {readBack : Draft → Except StoreFault Draft} {answer : StoreAnswer}
    (hdrafts : ∀ draft ∈ answer.drafts, readBack draft = .ok draft) :
    answer.readWith readBack = .ok answer := by
  cases answer with
  | history messages =>
    have hmessages : (messages.mapM fun message => (readBack message.2).map (message.1, ·)) =
        .ok messages := by
      refine mapM_eq_ok_self fun message hmem => ?_
      rw [hdrafts message.2 (List.mem_map_of_mem hmem)]
      rfl
    rw [readWith, hmessages]
    rfl
  | opened session => rfl
  | taken => rfl
  | card found => rfl
  | cards found => rfl

end StoreAnswer

/-- A call with what it is given from outside. -/
structure StoreStep where
  /-- The time and the new name. -/
  stamp : Stamp
  /-- What the store is asked. -/
  call : StoreCall

namespace StoreStep

/-- The session that a step leaves behind, new or not. -/
def left? (step : StoreStep) : Option SessionId :=
  match step.call with
  | .openSession _ _ => some step.stamp.name
  | .append session _ => some session
  | _ => none

/-- Whether a step opens a session. -/
def opens (step : StoreStep) : Bool :=
  match step.call with
  | .openSession _ _ => true
  | _ => false

/-- Whether a step appends to a session. -/
def appends (step : StoreStep) : Bool :=
  match step.call with
  | .append _ _ => true
  | _ => false

/-- One step comes before another: the time of the other is later, and its name is new behind it. -/
structure Before (step later : StoreStep) : Prop where
  time : step.stamp.now.before later.stamp.now = true
  session : later.opens = true → step.left? ≠ some later.stamp.name
  message : step.appends = true → later.appends = true → step.stamp.name ≠ later.stamp.name

instance (step later : StoreStep) : Decidable (step.Before later) :=
  decidable_of_iff
    (step.stamp.now.before later.stamp.now = true ∧
      (later.opens = true → step.left? ≠ some later.stamp.name) ∧
      (step.appends = true → later.appends = true → step.stamp.name ≠ later.stamp.name))
    ⟨fun ⟨time, session, message⟩ => ⟨time, session, message⟩,
      fun ⟨time, session, message⟩ => ⟨time, session, message⟩⟩

variable {σ : Type} [SessionStore σ]

/-- A step of a store: its answer and the state behind it. -/
def run (step : StoreStep) (s : σ) : Except StoreFault StoreAnswer × σ :=
  match step.call with
  | .openSession agentId title =>
    let (answer, s) := SessionStore.openSession step.stamp agentId title s
    (answer.map .opened, s)
  | .append session draft =>
    let (answer, s) := SessionStore.append step.stamp session draft s
    (answer.map fun _ => .taken, s)
  | .recentHistory session limit =>
    let answer := SessionStore.recentHistory step.stamp.now session limit s
    (answer.map fun messages => .history (messages.map (·.placed)), s)
  | .session? session =>
    let answer := SessionStore.session? step.stamp.now session s
    (answer.map fun found => .card (found.map (·.card)), s)
  | .sessions agentId =>
    let answer := SessionStore.sessions step.stamp.now agentId s
    (answer.map fun found => .cards (found.map (·.card)), s)

end StoreStep

/-- What a store answers to steps, one after another. -/
def SessionStore.answers {σ : Type} [SessionStore σ] :
    List StoreStep → σ → List (Except StoreFault StoreAnswer)
  | [], _ => []
  | step :: rest, s => (step.run s).1 :: answers rest (step.run s).2

end Calls

/-- A session with all its drafts. -/
structure LedgerEntry where
  /-- The session. -/
  card : SessionCard
  /-- Its drafts in the order of their appending. -/
  drafts : List Draft

/-- Sessions, the one that was last opened or appended to first. -/
abbrev Ledger := List LedgerEntry

namespace Ledger

/-- The entry of a session, if it is there. -/
def entry? (ledger : Ledger) (session : SessionId) : Option LedgerEntry :=
  List.find? (fun entry => entry.card.id == session) ledger

/-- The entry of a session. One that is not there is without an agent and without drafts. -/
def entry (ledger : Ledger) (session : SessionId) : LedgerEntry :=
  (ledger.entry? session).getD ⟨⟨session, "", none⟩, []⟩

/-- The ledger with a session that is opened. -/
def withSession (ledger : Ledger) (session : SessionId) (agentId : String)
    (title : Option String) : Ledger :=
  ⟨⟨session, agentId, title⟩, []⟩ :: ledger

/-- The ledger with one more draft, the session of which is opened without an agent if it is not
there. -/
def withDraft (ledger : Ledger) (session : SessionId) (draft : Draft) : Ledger :=
  let entry := ledger.entry session
  { entry with drafts := entry.drafts ++ [draft] } ::
    List.filter (fun other => other.card.id != session) ledger

/-- The ledger behind a step. -/
def after (ledger : Ledger) (step : StoreStep) : Ledger :=
  match step.call with
  | .openSession agentId title => ledger.withSession step.stamp.name agentId title
  | .append session draft => ledger.withDraft session draft
  | _ => ledger

/-- The answer to a step. -/
def answer (ledger : Ledger) (step : StoreStep) : StoreAnswer :=
  match step.call with
  | .openSession _ _ => .opened step.stamp.name
  | .append _ _ => .taken
  | .recentHistory session limit =>
    .history ((lastOf limit (ledger.entry session).drafts).map (session, ·))
  | .session? session => .card ((ledger.entry? session).map (·.card))
  | .sessions agentId =>
    .cards ((ledger.map (·.card)).filter fun card => agentId.all (card.agentId == ·))

/-- The answers to steps, one after another. -/
def answers : Ledger → List StoreStep → List StoreAnswer
  | _, [] => []
  | ledger, step :: rest => ledger.answer step :: answers (ledger.after step) rest

section Entries

variable (ledger : Ledger)

theorem id_entry (session : SessionId) : (ledger.entry session).card.id = session := by
  rw [entry]
  cases hentry : ledger.entry? session with
  | none => rfl
  | some found => simpa using List.find?_some hentry

theorem entry_withSession_self (session : SessionId) (agentId : String) (title : Option String) :
    (ledger.withSession session agentId title).entry session = ⟨⟨session, agentId, title⟩, []⟩ := by
  rw [entry, entry?, withSession, List.find?_cons_of_pos (by simp), Option.getD_some]

theorem entry_withSession_other {session other : SessionId} (hother : other ≠ session)
    (agentId : String) (title : Option String) :
    (ledger.withSession session agentId title).entry other = ledger.entry other := by
  rw [entry, entry?, withSession, List.find?_cons_of_neg (by simpa using hother.symm)]
  rfl

theorem entry_withDraft_self (session : SessionId) (draft : Draft) :
    (ledger.withDraft session draft).entry session =
      { ledger.entry session with drafts := (ledger.entry session).drafts ++ [draft] } := by
  have hid := ledger.id_entry session
  rw [entry, entry?, withDraft, List.find?_cons_of_pos (by simpa using hid), Option.getD_some]

theorem entry_withDraft_other {session other : SessionId} (hother : other ≠ session)
    (draft : Draft) : (ledger.withDraft session draft).entry other = ledger.entry other := by
  have hid := ledger.id_entry session
  have hkept : (List.filter (fun entry => entry.card.id != session) ledger).find?
      (fun entry => entry.card.id == other) = ledger.entry? other := by
    rw [List.find?_filter, entry?]
    congr 1
    funext entry
    rw [Bool.eq_iff_iff]
    simp only [bne_iff_ne, beq_iff_eq, decide_eq_true_eq, and_iff_right_iff_imp]
    rintro rfl
    exact hother
  rw [entry, entry?, withDraft, List.find?_cons_of_neg (by simpa [hid] using hother.symm), hkept]
  rfl

end Entries

end Ledger

/-- A store that answers as a ledger does. -/
class LedgerStore (σ : Type) [SessionStore σ] where
  /-- What becomes of a draft that is read back. -/
  readBack : Draft → Except StoreFault Draft
  /-- Whether a store holds what a ledger does. -/
  Keeps : Ledger → σ → Prop
  /-- Whether a store is ready for steps, one after another. -/
  Awaits : List StoreStep → σ → Prop
  /-- A store that is ready for a step answers as the ledger does, and holds what it does behind the
  step. -/
  run_keeps {ledger : Ledger} {s : σ} {step : StoreStep} {rest : List StoreStep}
    (hkeeps : Keeps ledger s) (hawaits : Awaits (step :: rest) s) :
    (step.run s).1 = (ledger.answer step).readWith readBack ∧
      Keeps (ledger.after step) (step.run s).2 ∧ Awaits rest (step.run s).2

/-- A store answers to all steps as its ledger does. -/
theorem LedgerStore.answers_eq {σ : Type} [SessionStore σ] [LedgerStore σ] {ledger : Ledger} {s : σ}
    {steps : List StoreStep} (hkeeps : Keeps ledger s) (hawaits : Awaits steps s) :
    SessionStore.answers steps s =
      (ledger.answers steps).map fun answer => answer.readWith (readBack σ) := by
  induction steps generalizing ledger s with
  | nil => rfl
  | cons step rest ih =>
    obtain ⟨hanswer, hkeeps', hawaits'⟩ := run_keeps hkeeps hawaits
    rw [SessionStore.answers, Ledger.answers, List.map_cons, hanswer, ih hkeeps' hawaits']

namespace Ledger

/-- The drafts of all sessions. -/
def drafts (ledger : Ledger) : List Draft :=
  ledger.flatMap (·.drafts)

private theorem mem_drafts_of_entry {ledger : Ledger} {session : SessionId} {draft : Draft}
    (hmem : draft ∈ (ledger.entry session).drafts) : draft ∈ ledger.drafts := by
  rw [entry] at hmem
  cases hentry : ledger.entry? session with
  | none =>
    rw [hentry] at hmem
    exact absurd hmem List.not_mem_nil
  | some found =>
    rw [hentry] at hmem
    exact List.mem_flatMap.mpr ⟨found, List.mem_of_find?_eq_some hentry, hmem⟩

private theorem mem_drafts_after {ledger : Ledger} {step : StoreStep} {draft : Draft}
    (hmem : draft ∈ drafts (ledger.after step)) :
    draft ∈ ledger.drafts ∨ ∃ session, step.call = .append session draft := by
  rw [after] at hmem
  cases hcall : step.call with
  | openSession agentId title =>
    simp only [hcall, withSession, drafts, List.flatMap_cons, List.nil_append] at hmem
    exact .inl hmem
  | append session appended =>
    simp only [hcall, withDraft, drafts, List.flatMap_cons, List.mem_append,
      List.mem_singleton] at hmem
    obtain (hmem | rfl) | hmem := hmem
    · exact .inl (mem_drafts_of_entry hmem)
    · exact .inr ⟨session, rfl⟩
    · obtain ⟨other, hother, hmem⟩ := List.mem_flatMap.mp hmem
      exact .inl (List.mem_flatMap.mpr ⟨other, List.mem_of_mem_filter hother, hmem⟩)
  | recentHistory session limit => exact .inl (by simpa only [hcall] using hmem)
  | session? session => exact .inl (by simpa only [hcall] using hmem)
  | sessions agentId => exact .inl (by simpa only [hcall] using hmem)

private theorem mem_drafts_answer {ledger : Ledger} {step : StoreStep} {draft : Draft}
    (hmem : draft ∈ (ledger.answer step).drafts) : draft ∈ ledger.drafts := by
  rw [answer] at hmem
  cases hcall : step.call with
  | recentHistory session limit =>
    simp only [hcall, StoreAnswer.drafts, List.map_map, List.mem_map, Function.comp] at hmem
    obtain ⟨_, hmem, rfl⟩ := hmem
    exact mem_drafts_of_entry (List.mem_of_mem_drop hmem)
  | openSession agentId title => simp [hcall, StoreAnswer.drafts] at hmem
  | append session appended => simp [hcall, StoreAnswer.drafts] at hmem
  | session? session => simp [hcall, StoreAnswer.drafts] at hmem
  | sessions agentId => simp [hcall, StoreAnswer.drafts] at hmem

/-- A ledger tells no draft that it was not given. -/
theorem mem_drafts_answers {ledger : Ledger} {steps : List StoreStep} {told : StoreAnswer}
    {draft : Draft} (htold : told ∈ ledger.answers steps) (hmem : draft ∈ told.drafts) :
    draft ∈ ledger.drafts ∨ ∃ step ∈ steps, ∃ session, step.call = .append session draft := by
  induction steps generalizing ledger with
  | nil => exact absurd htold List.not_mem_nil
  | cons step rest ih =>
    obtain rfl | htold := List.mem_cons.mp htold
    · exact .inl (mem_drafts_answer hmem)
    · obtain hold | ⟨later, hlater, hcall⟩ := ih htold
      · obtain hold | hcall := mem_drafts_after hold
        · exact .inl hold
        · exact .inr ⟨step, List.mem_cons_self .., hcall⟩
      · exact .inr ⟨later, List.mem_cons_of_mem _ hlater, hcall⟩

end Ledger

section Renaming

variable (rename : SessionId → SessionId) (redraft : Draft → Draft)

/-- The call with the names of sessions and the drafts replaced. -/
def StoreCall.renamed : StoreCall → StoreCall
  | .openSession agentId title => .openSession agentId title
  | .append session draft => .append (rename session) (redraft draft)
  | .recentHistory session limit => .recentHistory (rename session) limit
  | .session? session => .session? (rename session)
  | .sessions agentId => .sessions agentId

/-- The session with its name replaced. -/
def SessionCard.renamed (card : SessionCard) : SessionCard :=
  { card with id := rename card.id }

/-- The answer with the names of sessions and the drafts replaced. -/
def StoreAnswer.renamed : StoreAnswer → StoreAnswer
  | .opened session => .opened (rename session)
  | .taken => .taken
  | .history messages => .history (messages.map fun (session, draft) => (rename session, redraft draft))
  | .card found => .card (found.map (·.renamed rename))
  | .cards found => .cards (found.map (·.renamed rename))

/-- A step matches another one that asks for the same with names and drafts replaced, and if it opens a
session, the new names match as well. -/
structure StoreStep.Matches (step step' : StoreStep) : Prop where
  call : step'.call = step.call.renamed rename redraft
  opened : step.opens = true → step'.stamp.name = rename step.stamp.name

/-- The entry with the name of its session and its drafts replaced. -/
def LedgerEntry.renamed (entry : LedgerEntry) : LedgerEntry :=
  ⟨entry.card.renamed rename, entry.drafts.map redraft⟩

variable {rename redraft} (hrename : Function.Injective rename)

include hrename

private theorem entry?_renamed (ledger : Ledger) (session : SessionId) :
    Ledger.entry? (ledger.map (·.renamed rename redraft)) (rename session) =
      (ledger.entry? session).map (·.renamed rename redraft) := by
  rw [Ledger.entry?, Ledger.entry?, List.find?_map]
  congr 2
  funext entry
  simp [LedgerEntry.renamed, SessionCard.renamed, hrename.eq_iff]

private theorem entry_renamed (ledger : Ledger) (session : SessionId) :
    Ledger.entry (ledger.map (·.renamed rename redraft)) (rename session) =
      (ledger.entry session).renamed rename redraft := by
  rw [Ledger.entry, Ledger.entry, entry?_renamed hrename]
  cases ledger.entry? session <;> rfl

private theorem after_renamed (ledger : Ledger) {step step' : StoreStep}
    (hmatches : step.Matches rename redraft step') :
    Ledger.after (ledger.map (·.renamed rename redraft)) step' =
      (ledger.after step).map (·.renamed rename redraft) := by
  have hcall' := hmatches.call
  simp only [Ledger.after]
  cases hcall : step.call with
  | openSession agentId title =>
    have hname := hmatches.opened (by rw [StoreStep.opens, hcall])
    simp only [hcall, StoreCall.renamed] at hcall'
    simp only [hcall', hname, Ledger.withSession, List.map_cons]
    rfl
  | append session draft =>
    have hothers (entry : LedgerEntry) :
        ((entry.renamed rename redraft).card.id != rename session) = (entry.card.id != session) := by
      rw [Bool.eq_iff_iff]
      simp [LedgerEntry.renamed, SessionCard.renamed, hrename.eq_iff]
    simp only [hcall, StoreCall.renamed] at hcall'
    simp only [hcall', Ledger.withDraft, entry_renamed hrename, List.filter_map, Function.comp_def,
      hothers, List.map_cons]
    simp only [LedgerEntry.renamed, List.map_append, List.map_cons, List.map_nil]
  | recentHistory session limit => simp only [hcall', hcall, StoreCall.renamed]
  | session? session => simp only [hcall', hcall, StoreCall.renamed]
  | sessions agentId => simp only [hcall', hcall, StoreCall.renamed]

private theorem answer_renamed (ledger : Ledger) {step step' : StoreStep}
    (hmatches : step.Matches rename redraft step') :
    Ledger.answer (ledger.map (·.renamed rename redraft)) step' =
      (ledger.answer step).renamed rename redraft := by
  have hcall' := hmatches.call
  simp only [Ledger.answer]
  cases hcall : step.call with
  | openSession agentId title =>
    have hname := hmatches.opened (by rw [StoreStep.opens, hcall])
    simp only [hcall, StoreCall.renamed] at hcall'
    simp only [hcall', hname, StoreAnswer.renamed]
  | append session draft =>
    simp only [hcall, StoreCall.renamed] at hcall'
    simp only [hcall', StoreAnswer.renamed]
  | recentHistory session limit =>
    simp only [hcall, StoreCall.renamed] at hcall'
    have hdrafts : ((ledger.entry session).renamed rename redraft).drafts =
        (ledger.entry session).drafts.map redraft := rfl
    simp only [hcall', entry_renamed hrename, hdrafts, ← map_lastOf, List.map_map,
      StoreAnswer.renamed]
    rfl
  | session? session =>
    simp only [hcall, StoreCall.renamed] at hcall'
    simp only [hcall', entry?_renamed hrename, StoreAnswer.renamed, Option.map_map]
    rfl
  | sessions agentId =>
    simp only [hcall, StoreCall.renamed] at hcall'
    simp only [hcall', StoreAnswer.renamed, List.map_map, List.filter_map]
    rfl

/-- A ledger answers to matching steps with the names and the drafts replaced. -/
theorem Ledger.answers_renamed (ledger : Ledger) {steps steps' : List StoreStep}
    (hmatches : List.Forall₂ (StoreStep.Matches rename redraft) steps steps') :
    Ledger.answers (ledger.map (·.renamed rename redraft)) steps' =
      (ledger.answers steps).map (·.renamed rename redraft) := by
  induction hmatches generalizing ledger with
  | nil => rfl
  | cons hstep _ ih =>
    rw [Ledger.answers, Ledger.answers, List.map_cons, answer_renamed hrename ledger hstep,
      after_renamed hrename ledger hstep, ih]

end Renaming

end Colloquy
