import Colloquy.Proofs.Store.Ledger
import Colloquy.Proofs.Store.UseOrder
import Colloquy.Store.Memory

/-!
# The ledger of the store in memory

The store in memory keeps its sessions in the order of their opening and sorts them by their times
when it is asked. Asked at later and later times, it answers as a ledger does, and gives back every
draft as it was.
-/

namespace Colloquy

namespace SessionLog

/-- A session and its messages in a ledger. -/
def entry (log : SessionLog) : LedgerEntry :=
  ⟨log.session.card, log.messages.map (·.draft)⟩

/-- One session was last used behind another. -/
def Newer (log other : SessionLog) : Prop :=
  other.session.updatedAt.before log.session.updatedAt = true

end SessionLog

namespace MemoryStore

/-- A store in memory holds the sessions of a ledger with their messages. -/
structure Holds (ledger : Ledger) (store : MemoryStore) : Prop where
  order : ∃ sorted, InUseOrder (·.session.id) SessionLog.Newer store.logs sorted ∧
    sorted.map SessionLog.entry = ledger
  placed : ∀ log ∈ store.logs, ∀ message ∈ log.messages, message.session = log.session.id

/-- Steps come one behind the other and behind the last use of every session, and open sessions under
names that are not there. -/
structure Ready (steps : List StoreStep) (store : MemoryStore) : Prop where
  before : steps.Pairwise StoreStep.Before
  time : ∀ step ∈ steps, ∀ log ∈ store.logs,
    log.session.updatedAt.before step.stamp.now = true
  name : ∀ step ∈ steps, step.opens = true → ∀ log ∈ store.logs, log.session.id ≠ step.stamp.name

theorem holds_empty : Holds [] empty where
  order := ⟨[], .nil, rfl⟩
  placed _ hmem := absurd hmem List.not_mem_nil

theorem ready_empty {steps : List StoreStep} (hbefore : steps.Pairwise StoreStep.Before) :
    Ready steps empty where
  before := hbefore
  time _ _ _ hmem := absurd hmem List.not_mem_nil
  name _ _ _ _ hmem := absurd hmem List.not_mem_nil

variable {ledger : Ledger} {store : MemoryStore} {step : StoreStep} {rest : List StoreStep}

/-- A store that keeps all but one session as they were, and the one last used at the time of a step,
is ready for what comes behind the step. -/
private theorem Ready.behind (h : Ready (step :: rest) store) {store' : MemoryStore}
    (hlogs : ∀ log ∈ store'.logs, log ∈ store.logs ∨
      log.session.updatedAt = step.stamp.now ∧ step.left? = some log.session.id) :
    Ready rest store' := by
  obtain ⟨hlater, hrest⟩ := List.pairwise_cons.mp h.before
  refine ⟨hrest, ?_, ?_⟩
  · intro later hmem log hlog
    obtain hold | ⟨htime, -⟩ := hlogs log hlog
    · exact h.time later (List.mem_cons_of_mem _ hmem) log hold
    · rw [htime]
      exact (hlater later hmem).time
  · intro later hmem hopens log hlog
    obtain hold | ⟨-, hleft⟩ := hlogs log hlog
    · exact h.name later (List.mem_cons_of_mem _ hmem) hopens log hold
    · intro hname
      rw [hname] at hleft
      exact (hlater later hmem).session hopens hleft

/-- What a ledger has for a session is what the store has. -/
private theorem Holds.entry?_eq (h : Holds ledger store) (session : SessionId) :
    ledger.entry? session = (store.find? session).map SessionLog.entry := by
  obtain ⟨sorted, horder, rfl⟩ := h.order
  rw [Ledger.entry?, List.find?_map, find?, ← horder.find?_eq]
  rfl

section Open

/-- Opening a session under a new name puts it in front. -/
private theorem Holds.openSession (h : Holds ledger store) {stamp : Stamp}
    (htime : ∀ log ∈ store.logs, log.session.updatedAt.before stamp.now = true)
    (hname : ∀ log ∈ store.logs, log.session.id ≠ stamp.name) (agentId : String)
    (title : Option String) :
    Holds (ledger.withSession stamp.name agentId title)
      ⟨store.logs ++ [SessionLog.opened stamp.name agentId title stamp.now]⟩ := by
  obtain ⟨sorted, horder, rfl⟩ := h.order
  refine ⟨⟨_, horder.added hname htime, rfl⟩, ?_⟩
  intro log hlog message hmessage
  obtain hold | hnew := List.mem_append.mp hlog
  · exact h.placed log hold message hmessage
  · obtain rfl := List.mem_singleton.mp hnew
    exact absurd hmessage List.not_mem_nil

end Open

section Append

variable (message : Message)

/-- The session that a message goes to, behind the message. -/
def pushed (store : MemoryStore) : SessionLog :=
  ((store.find? message.session).getD
    (SessionLog.opened message.session "" none message.createdAt)).push message

theorem id_pushed (store : MemoryStore) :
    (pushed message store).session.id = message.session := by
  rw [pushed]
  cases hfound : store.find? message.session with
  | none => rfl
  | some log =>
    have hid : log.session.id = message.session := by simpa using List.find?_some hfound
    exact hid

/-- A message takes the place of its session, or a new one. -/
theorem pushInto_perm (hnodup : (store.logs.map (·.session.id)).Nodup) :
    (pushInto message store.logs).Perm
      (pushed message store :: store.logs.filter fun log => log.session.id != message.session) := by
  obtain ⟨logs⟩ := store
  simp only [pushed, find?] at *
  induction logs with
  | nil => exact .refl _
  | cons log rest ih =>
    rw [List.map_cons, List.nodup_cons] at hnodup
    rw [pushInto]
    by_cases hsame : log.session.id = message.session
    · have hrest : (rest.filter fun log => log.session.id != message.session) = rest := by
        refine filter_key_ne fun other hmem hid => ?_
        exact hnodup.1 (List.mem_map.mpr ⟨other, hmem, hid.trans hsame.symm⟩)
      rw [if_pos hsame, List.find?_cons_of_pos (by simpa using hsame),
        List.filter_cons_of_neg (by simpa using hsame), hrest]
      exact .refl _
    · rw [if_neg hsame, List.find?_cons_of_neg (by simpa using hsame),
        List.filter_cons_of_pos (by simpa using hsame)]
      exact ((ih hnodup.2).cons log).trans (.swap ..)

private theorem mem_pushInto (hnodup : (store.logs.map (·.session.id)).Nodup) {log : SessionLog}
    (hmem : log ∈ pushInto message store.logs) :
    log ∈ store.logs ∨ log = pushed message store := by
  obtain rfl | hold := List.mem_cons.mp ((pushInto_perm message hnodup).mem_iff.mp hmem)
  · exact .inr rfl
  · exact .inl (List.mem_of_mem_filter hold)

private theorem placed_pushed (h : Holds ledger store) :
    ∀ other ∈ (pushed message store).messages, other.session = message.session := by
  rw [pushed]
  cases hfound : store.find? message.session with
  | none => simp [SessionLog.push, SessionLog.opened]
  | some log =>
    have hid : log.session.id = message.session := by simpa using List.find?_some hfound
    have hplaced := h.placed log (List.mem_of_find?_eq_some hfound)
    rw [hid] at hplaced
    simpa [SessionLog.push, or_imp, forall_and] using hplaced

private theorem entry_pushed (h : Holds ledger store) :
    (pushed message store).entry =
      { ledger.entry message.session with
        drafts := (ledger.entry message.session).drafts ++ [message.draft] } := by
  rw [pushed, Ledger.entry, h.entry?_eq]
  cases store.find? message.session with
  | none => rfl
  | some log => simp [SessionLog.entry, SessionLog.push, Session.card]

/-- Appending moves a session to the front with one more draft. -/
private theorem Holds.append (h : Holds ledger store)
    (htime : ∀ log ∈ store.logs, log.session.updatedAt.before message.createdAt = true) :
    Holds (ledger.withDraft message.session message.draft) ⟨pushInto message store.logs⟩ := by
  have hentry := entry_pushed message h
  obtain ⟨sorted, horder, hsorted⟩ := h.order
  have hid := id_pushed message store
  have hperm := pushInto_perm message horder.map_nodup
  refine ⟨⟨_, horder.moved (a := pushed message store) ?_ ?_, ?_⟩, ?_⟩
  · rwa [hid]
  · intro log hmem
    exact htime log hmem
  · rw [List.map_cons, hentry, hid, Ledger.withDraft, ← hsorted, List.filter_map]
    rfl
  · intro log hlog other hother
    obtain hold | rfl := mem_pushInto message horder.map_nodup hlog
    · exact h.placed log hold other hother
    · rw [hid]
      exact placed_pushed message h other hother

end Append

section Answers

/-- A history is what the ledger has last for a session. -/
private theorem Holds.recentHistory (h : Holds ledger store) (session : SessionId) (limit : Nat) :
    (((store.find? session).map fun log => lastOf limit log.messages).getD []).map (·.placed) =
      (lastOf limit (ledger.entry session).drafts).map (session, ·) := by
  rw [Ledger.entry, h.entry?_eq]
  cases hfound : store.find? session with
  | none => simp [lastOf]
  | some log =>
    have hid : log.session.id = session := by simpa using List.find?_some hfound
    have hplaced : log.messages.map (·.placed) = (log.messages.map (·.draft)).map (session, ·) := by
      rw [List.map_map]
      refine List.map_congr_left fun message hmem => ?_
      have hsession := h.placed log (List.mem_of_find?_eq_some hfound) message hmem
      rw [Message.placed, hsession, hid]
      rfl
    simp only [Option.map_some, Option.getD_some, map_lastOf, hplaced]
    rfl

/-- Sorted by their times, sessions are in the order of their last use. -/
theorem byLastUse_filter {sorted : List SessionLog}
    (h : InUseOrder (·.session.id) SessionLog.Newer store.logs sorted) (p : Session → Bool) :
    byLastUse ((store.logs.map (·.session)).filter p) = (sorted.map (·.session)).filter p := by
  have hsessions : InUseOrder Session.id (fun s t : Session => t.updatedAt.before s.updatedAt = true)
      (store.logs.map (·.session)) (sorted.map (·.session)) := by
    refine ⟨h.perm.map _, h.newer.map _ fun _ _ => id, ?_⟩
    rw [List.map_map]
    exact h.nodup
  refine hsessions.mergeSort_filter (fun s t => !s.updatedAt.before t.updatedAt) ?_ ?_ ?_ p
  · intro a b c hab hbc
    simp only [Bool.not_eq_true', ← Bool.not_eq_true, Instant.before_iff] at hab hbc ⊢
    omega
  · intro a b
    simp only [Bool.or_eq_true, Bool.not_eq_true', ← Bool.not_eq_true, Instant.before_iff]
    omega
  · intro a b hnewer
    simpa using hnewer

/-- The sessions are listed in the order of the ledger. -/
private theorem Holds.sessions (h : Holds ledger store) (agentId : Option String) :
    (byLastUse ((store.logs.map (·.session)).filter fun session =>
      agentId.all (session.agentId == ·))).map (·.card) =
      (ledger.map (·.card)).filter fun card => agentId.all (card.agentId == ·) := by
  obtain ⟨sorted, horder, rfl⟩ := h.order
  rw [byLastUse_filter horder, List.filter_map, List.map_map, List.map_map, List.filter_map]
  rfl

end Answers

instance : LedgerStore MemoryStore where
  readBack := .ok
  Keeps := Holds
  Awaits := Ready
  run_keeps {ledger store step rest} hkeeps hawaits := by
    obtain ⟨stamp, call⟩ := step
    have hasking : Ready rest store := hawaits.behind fun _ => .inl
    have htime := hawaits.time ⟨stamp, call⟩ (List.mem_cons_self ..)
    rw [StoreAnswer.readWith_eq fun _ _ => rfl]
    cases call with
    | openSession agentId title =>
      have hname := hawaits.name ⟨stamp, _⟩ (List.mem_cons_self ..) rfl
      have hholds := hkeeps.openSession htime hname agentId title
      simp only [StoreStep.run, SessionStore.openSession, filter_key_ne hname]
      refine ⟨rfl, hholds, hawaits.behind fun log hlog => ?_⟩
      obtain hold | hnew := List.mem_append.mp hlog
      · exact .inl hold
      · obtain rfl := List.mem_singleton.mp hnew
        exact .inr ⟨rfl, rfl⟩
    | append session draft =>
      let message := draft.toMessage stamp.name session stamp.now
      obtain ⟨sorted, horder, -⟩ := hkeeps.order
      refine ⟨rfl, hkeeps.append message htime, hawaits.behind fun log hlog => ?_⟩
      obtain hold | rfl := mem_pushInto message horder.map_nodup hlog
      · exact .inl hold
      · exact .inr ⟨rfl, congrArg some (id_pushed message store).symm⟩
    | recentHistory session limit =>
      refine ⟨?_, hkeeps, hasking⟩
      exact congrArg (fun messages => Except.ok (StoreAnswer.history messages))
        (hkeeps.recentHistory session limit)
    | session? session =>
      refine ⟨?_, hkeeps, hasking⟩
      have hcard : ((store.find? session).map (·.session)).map (·.card) =
          (ledger.entry? session).map (·.card) := by
        rw [hkeeps.entry?_eq, Option.map_map, Option.map_map]
        rfl
      exact congrArg (fun card => Except.ok (StoreAnswer.card card)) hcard
    | sessions agentId =>
      refine ⟨?_, hkeeps, hasking⟩
      exact congrArg (fun cards => Except.ok (StoreAnswer.cards cards)) (hkeeps.sessions agentId)

end MemoryStore

end Colloquy
