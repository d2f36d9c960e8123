import Colloquy.Proofs.Instant.StoredOrder
import Colloquy.Proofs.Store.Readback
import Colloquy.Proofs.Store.UseOrder

/-!
# The ledger of the database

The database keeps sessions and messages in two tables and sorts sessions by their times as texts.
Asked at later and later times, it answers as a ledger does. A draft is given back as its texts are
read: whatever it is, the database takes it, but its records may be such that they cannot be read
from the text that they were written to.
-/

namespace Colloquy

section Rows

/-- The session of a row without its times. -/
def SessionRow.card (row : SessionRow) : SessionCard :=
  ⟨row.id, row.agentId, row.title⟩

/-- One session was last used behind another. -/
def SessionRow.Newer (row other : SessionRow) : Prop :=
  other.updatedAt < row.updatedAt

end Rows

namespace Database

/-- A database holds the sessions of a ledger with their messages, and accepts all that a new one
does. -/
structure Holds (ledger : Ledger) (db : Database) : Prop where
  accepts : db.AcceptsLike fresh
  order : ∃ sorted, InUseOrder (·.id) SessionRow.Newer db.sessions sorted ∧
    sorted.map (·.card) = ledger.map (·.card)
  sayings : ∀ session, db.sayings session = (ledger.entry session).drafts.map (·.saying)

/-- Steps come one behind the other and behind the last use of every session, at times whose texts are
in the order of the times. The names that they bring are not there yet, and their messages can be
numbered. -/
structure Ready (steps : List StoreStep) (db : Database) : Prop where
  before : steps.Pairwise StoreStep.Before
  civil : ∀ step ∈ steps, step.stamp.now.Civil
  time : ∀ step ∈ steps, ∀ row ∈ db.sessions, row.updatedAt < step.stamp.now.storedText
  session : ∀ step ∈ steps, step.opens = true → ¬ db.NamesSession step.stamp.name
  message : ∀ step ∈ steps, step.appends = true → ¬ db.NamesMessage step.stamp.name
  room : db.messages.length + steps.length ≤ Column.maxNumber

theorem holds_fresh : Holds [] fresh where
  accepts := ⟨rfl, rfl, rfl⟩
  order := ⟨[], .nil, rfl⟩
  sayings _ := rfl

theorem ready_fresh {steps : List StoreStep} (hbefore : steps.Pairwise StoreStep.Before)
    (hcivil : ∀ step ∈ steps, step.stamp.now.Civil) (hroom : steps.length ≤ Column.maxNumber) :
    Ready steps fresh where
  before := hbefore
  civil := hcivil
  time _ _ _ hmem := absurd hmem List.not_mem_nil
  session _ _ _ := by
    rintro (⟨_, hmem, -⟩ | ⟨_, hmem, -⟩)
    · exact absurd hmem List.not_mem_nil
    · exact absurd hmem List.not_mem_nil
  message _ _ _ := by
    rintro ⟨_, hmem, -⟩
    exact absurd hmem List.not_mem_nil
  room := by simpa [fresh, blank] using hroom

variable {ledger : Ledger} {db : Database} {step : StoreStep} {rest : List StoreStep}

/-- A database that keeps all but one session and all but one message as they were, the session last
used at the time of a step and the message under its name, is ready for what comes behind the step. -/
private theorem Ready.behind (h : Ready (step :: rest) db) {db' : Database}
    (hsessions : ∀ row ∈ db'.sessions, row ∈ db.sessions ∨
      row.updatedAt = step.stamp.now.storedText ∧ step.left? = some row.id)
    (hmessages : ∀ row ∈ db'.messages, row ∈ db.messages ∨
      step.appends = true ∧ row.id = step.stamp.name ∧ step.left? = some row.session)
    (hroom : db'.messages.length ≤ db.messages.length + 1) : Ready rest db' := by
  obtain ⟨hlater, hrest⟩ := List.pairwise_cons.mp h.before
  refine ⟨hrest, ?_, ?_, ?_, ?_, ?_⟩
  · intro later hmem
    exact h.civil later (List.mem_cons_of_mem _ hmem)
  · intro later hmem row hrow
    obtain hold | ⟨htime, -⟩ := hsessions row hrow
    · exact h.time later (List.mem_cons_of_mem _ hmem) row hold
    · rw [htime]
      exact Instant.storedText_lt (h.civil step (List.mem_cons_self ..))
        (h.civil later (List.mem_cons_of_mem _ hmem)) (hlater later hmem).time
  · intro later hmem hopens
    have hnew := h.session later (List.mem_cons_of_mem _ hmem) hopens
    rintro (⟨row, hrow, hname⟩ | ⟨row, hrow, hname⟩)
    · obtain hold | ⟨-, hleft⟩ := hsessions row hrow
      · exact hnew (.inl ⟨row, hold, hname⟩)
      · rw [hname] at hleft
        exact (hlater later hmem).session hopens hleft
    · obtain hold | ⟨-, -, hleft⟩ := hmessages row hrow
      · exact hnew (.inr ⟨row, hold, hname⟩)
      · rw [hname] at hleft
        exact (hlater later hmem).session hopens hleft
  · intro later hmem happends
    have hnew := h.message later (List.mem_cons_of_mem _ hmem) happends
    rintro ⟨row, hrow, hname⟩
    obtain hold | ⟨hstep, hid, -⟩ := hmessages row hrow
    · exact hnew ⟨row, hold, hname⟩
    · exact (hlater later hmem).message hstep happends (hid.symm.trans hname)
  · have hfit := h.room
    rw [List.length_cons] at hfit
    omega

/-- The card of a session is the one that the ledger has. -/
private theorem Holds.card?_eq (h : Holds ledger db) (session : SessionId) :
    (db.sessions.find? (·.id == session)).map (·.card) = (ledger.entry? session).map (·.card) := by
  obtain ⟨sorted, horder, hcards⟩ := h.order
  have hsorted : (sorted.map (·.card)).find? (·.id == session) =
      (sorted.find? (·.id == session)).map (·.card) := List.find?_map ..
  have hledger : (ledger.map (·.card)).find? (·.id == session) =
      (ledger.entry? session).map (·.card) := List.find?_map ..
  rw [← horder.find?_eq, ← hsorted, hcards, hledger]

section Open

/-- Opening a session under a new name puts it in front. -/
private theorem Holds.openSession (h : Holds ledger db) {stamp : Stamp}
    (htime : ∀ row ∈ db.sessions, row.updatedAt < stamp.now.storedText)
    (hname : ¬ db.NamesSession stamp.name) (agentId : String) (title : Option String) :
    Holds (ledger.withSession stamp.name agentId title)
      { db with sessions := db.sessions ++
          [⟨stamp.name, agentId, title, stamp.now.storedText, stamp.now.storedText⟩] } := by
  obtain ⟨sorted, horder, hcards⟩ := h.order
  have hkey : ∀ row ∈ db.sessions, row.id ≠ stamp.name := fun row hmem hid =>
    hname (.inl ⟨row, hmem, hid⟩)
  refine ⟨⟨h.accepts.schema, h.accepts.isOpen, h.accepts.updatesBlocked⟩,
    ⟨_, horder.added hkey htime, ?_⟩, fun session => ?_⟩
  · rw [List.map_cons, hcards]
    rfl
  · have hkept := h.sayings session
    by_cases hsame : session = stamp.name
    · subst hsame
      rw [ledger.entry_withSession_self]
      exact (sayings_eq_nil hname :)
    · rw [ledger.entry_withSession_other hsame]
      exact hkept

end Open

section Append

private theorem touched_of_absent {id time : String} {rows : List SessionRow}
    (habsent : ∀ row ∈ rows, row.id ≠ id) : touched id time rows = rows := by
  rw [touched]
  conv_rhs => rw [← List.map_id rows]
  refine List.map_congr_left fun row hmem => ?_
  rw [if_neg (by simpa using habsent row hmem)]
  rfl

/-- The row of a session, which is there without an agent if it was not, last used at a time. -/
def used (id time : String) (rows : List SessionRow) : SessionRow :=
  { (rows.find? (·.id == id)).getD ⟨id, "", none, time, time⟩ with updatedAt := time }

/-- The row of a session that is used takes the place of the old one, or a new one. -/
theorem touched_perm (id time : String) {rows : List SessionRow}
    (hnodup : (rows.map (·.id)).Nodup) :
    (touched id time (withSession id time rows)).Perm
      (used id time rows :: rows.filter (·.id != id)) := by
  induction rows with
  | nil => simp [withSession, touched, used]
  | cons row rest ih =>
    rw [List.map_cons, List.nodup_cons] at hnodup
    by_cases hsame : row.id = id
    · have habsent : ∀ other ∈ rest, other.id ≠ id := by
        intro other hmem hid
        exact hnodup.1 (List.mem_map.mpr ⟨other, hmem, hid.trans hsame.symm⟩)
      have hwith : withSession id time (row :: rest) = row :: rest := by
        simp [withSession, hsame]
      have htouched : touched id time (row :: rest) =
          { row with updatedAt := time } :: touched id time rest := by
        simp [touched, hsame]
      have hused : used id time (row :: rest) = { row with updatedAt := time } := by
        simp [used, hsame]
      rw [hwith, htouched, touched_of_absent habsent, hused,
        List.filter_cons_of_neg (by simpa using hsame), filter_key_ne habsent]
    · have hwith : withSession id time (row :: rest) = row :: withSession id time rest := by
        simp only [withSession, List.any_cons, beq_eq_false_iff_ne.mpr hsame, Bool.false_or]
        split <;> rfl
      have htouched (others : List SessionRow) :
          touched id time (row :: others) = row :: touched id time others := by
        simp [touched, hsame]
      have hused : used id time (row :: rest) = used id time rest := by
        simp [used, hsame]
      rw [hwith, htouched, hused, List.filter_cons_of_pos (by simpa using hsame)]
      exact ((ih hnodup.2).cons row).trans (.swap ..)

private theorem mem_touched {id time : String} {rows : List SessionRow}
    (hnodup : (rows.map (·.id)).Nodup) {row : SessionRow}
    (hmem : row ∈ touched id time (withSession id time rows)) :
    row ∈ rows ∨ row = used id time rows := by
  obtain rfl | hold := List.mem_cons.mp ((touched_perm id time hnodup).mem_iff.mp hmem)
  · exact .inr rfl
  · exact .inl (List.mem_of_mem_filter hold)

private theorem card_used (h : Holds ledger db) (id time : String) :
    (used id time db.sessions).card = (ledger.entry id).card := by
  have hcard := h.card?_eq id
  rw [used, Ledger.entry]
  cases hrow : db.sessions.find? (·.id == id) with
  | none =>
    rw [hrow, Option.map_none, eq_comm, Option.map_eq_none_iff] at hcard
    rw [hcard]
    rfl
  | some row =>
    rw [hrow, Option.map_some, eq_comm, Option.map_eq_some_iff] at hcard
    obtain ⟨entry, hentry, hcard⟩ := hcard
    rw [hentry, Option.getD_some, Option.getD_some, hcard]
    rfl

private theorem id_used (h : Holds ledger db) (id time : String) :
    (used id time db.sessions).id = id := by
  have hcard := congrArg SessionCard.id (card_used h id time)
  rwa [ledger.id_entry] at hcard

/-- Appending moves a session to the front with one more draft. -/
private theorem Holds.append (h : Holds ledger db) (message : Message)
    (htime : ∀ row ∈ db.sessions, row.updatedAt < message.createdAt.storedText) :
    Holds (ledger.withDraft message.session message.draft) (db.withMessage message) := by
  obtain ⟨sorted, horder, hcards⟩ := h.order
  let time := message.createdAt.storedText
  have hid := id_used h message.session time
  have hperm := touched_perm message.session time horder.map_nodup
  refine ⟨⟨h.accepts.schema, h.accepts.isOpen, h.accepts.updatesBlocked⟩, ⟨_,
    horder.moved (a := used message.session time db.sessions) (by rwa [hid]) htime, ?_⟩,
    fun session => ?_⟩
  · have hothers : (sorted.filter (·.id != message.session)).map (·.card) =
        (List.filter (fun entry => entry.card.id != message.session) ledger).map (·.card) := by
      have hfilter := congrArg (List.filter (·.id != message.session)) hcards
      rwa [List.filter_map, List.filter_map] at hfilter
    rw [List.map_cons, hid, hothers, card_used h]
    rfl
  · have hkept := h.sayings session
    by_cases hsame : session = message.session
    · subst hsame
      rw [ledger.entry_withDraft_self, sayings_withMessage, hkept, List.map_append]
      rfl
    · rw [ledger.entry_withDraft_other hsame, sayings_withMessage_other db hsame, hkept]

end Append

section Answers

/-- A history is what the ledger has last for a session, read back. -/
private theorem Holds.recentHistory (h : Holds ledger db) (now : Instant) (session : SessionId)
    (limit : Nat) (hroom : db.messages.length ≤ Column.maxNumber) :
    (SessionStore.recentHistory now session limit db).map (·.map (·.placed)) =
      ((lastOf limit (ledger.entry session).drafts).map (session, ·)).mapM fun message =>
        message.2.readBack.map (message.1, ·) := by
  have hlength : (ledger.entry session).drafts.length ≤ Column.maxNumber := by
    have hsayings := congrArg List.length (h.sayings session)
    rw [Database.sayings, List.length_map, List.length_map] at hsayings
    rw [← hsayings]
    exact Nat.le_trans (List.length_filter_le ..) hroom
  rw [placed_recentHistory h.accepts now limit (h.sayings session), lastOf_min hlength]

/-- Sorted by the texts of their times, sessions are in the order of their last use. -/
theorem byLastUse_filter {rows sorted : List SessionRow}
    (h : InUseOrder (·.id) SessionRow.Newer rows sorted) (p : SessionRow → Bool) :
    byLastUse (rows.filter p) = sorted.filter p := by
  refine h.mergeSort_filter (fun s t => decide (t.updatedAt ≤ s.updatedAt)) ?_ ?_ ?_ p
  · intro a b c hab hbc
    simp only [decide_eq_true_eq] at hab hbc ⊢
    exact String.le_trans hbc hab
  · intro a b
    simpa using String.le_total b.updatedAt a.updatedAt
  · intro a b hnewer
    rw [SessionRow.Newer] at hnewer
    simpa using hnewer

/-- The sessions are listed in the order of the ledger. -/
private theorem Holds.sessions (h : Holds ledger db) (now : Instant) (agentId : Option String) :
    ((byLastUse (db.sessions.filter fun row => agentId.all (row.agentId == ·))).map
      (SessionRow.session now)).map (·.card) =
      (ledger.map (·.card)).filter fun card => agentId.all (card.agentId == ·) := by
  obtain ⟨sorted, horder, hcards⟩ := h.order
  rw [byLastUse_filter horder, List.map_map, ← hcards, List.filter_map]
  rfl

end Answers

instance : LedgerStore Database where
  readBack := Draft.readBack
  Keeps := Holds
  Awaits := Ready
  run_keeps {ledger db step rest} hkeeps hawaits := by
    obtain ⟨stamp, call⟩ := step
    have hasking : Ready rest db := hawaits.behind (fun _ => .inl) (fun _ => .inl) (Nat.le_succ _)
    have htime := hawaits.time ⟨stamp, call⟩ (List.mem_cons_self ..)
    cases call with
    | openSession agentId title =>
      have hname := hawaits.session ⟨stamp, _⟩ (List.mem_cons_self ..) rfl
      have hholds := hkeeps.openSession htime hname agentId title
      simp only [StoreStep.run, openSession_eq stamp agentId title db hname,
        if_pos (hasSessions_of_accepts hkeeps.accepts)]
      refine ⟨rfl, hholds, hawaits.behind (fun row hrow => ?_) (fun _ => .inl) (Nat.le_succ _)⟩
      obtain hold | hnew := List.mem_append.mp hrow
      · exact .inl hold
      · obtain rfl := List.mem_singleton.mp hnew
        exact .inr ⟨rfl, rfl⟩
    | append session draft =>
      let message := draft.toMessage stamp.name session stamp.now
      have hname := hawaits.message ⟨stamp, _⟩ (List.mem_cons_self ..) rfl
      obtain ⟨sorted, horder, -⟩ := hkeeps.order
      simp only [StoreStep.run, append_eq stamp session draft db hname,
        appendFault?_of_accepts hkeeps.accepts]
      refine ⟨rfl, hkeeps.append message htime, hawaits.behind (fun row hrow => ?_)
        (fun row hrow => ?_) ?_⟩
      · obtain hold | rfl := mem_touched horder.map_nodup hrow
        · exact .inl hold
        · exact .inr ⟨rfl, congrArg some (id_used hkeeps _ _).symm⟩
      · obtain hold | hnew := List.mem_append.mp hrow
        · exact .inl hold
        · obtain rfl := List.mem_singleton.mp hnew
          exact .inr ⟨rfl, rfl, rfl⟩
      · simp [withMessage]
    | recentHistory session limit =>
      have hroom : db.messages.length ≤ Column.maxNumber :=
        Nat.le_trans (Nat.le_add_right _ _) hawaits.room
      have hhistory := hkeeps.recentHistory stamp.now session limit hroom
      refine ⟨?_, hkeeps, hasking⟩
      simp only [StoreStep.run, Ledger.answer, StoreAnswer.readWith, ← hhistory]
      cases SessionStore.recentHistory stamp.now session limit db <;> rfl
    | session? session =>
      refine ⟨?_, hkeeps, hasking⟩
      have hcard := hkeeps.card?_eq session
      simp only [StoreStep.run, SessionStore.session?, if_pos (hasSessions_of_accepts hkeeps.accepts),
        Except.map, Option.map_map, Ledger.answer, StoreAnswer.readWith, ← hcard]
      rfl
    | sessions agentId =>
      refine ⟨?_, hkeeps, hasking⟩
      have hcards := hkeeps.sessions stamp.now agentId
      simp only [StoreStep.run, SessionStore.sessions, if_pos (hasSessions_of_accepts hkeeps.accepts),
        Except.map, hcards, Ledger.answer, StoreAnswer.readWith]

end Database

end Colloquy
