import Colloquy.Proofs.Instant.Reading
import Colloquy.Proofs.Store.DatabaseLedger
import Colloquy.Proofs.Store.MemoryLedger
import Colloquy.Proofs.Store.Roster

/-!
# Listings of the sessions

Both stores keep their sessions in the order of their opening and sort them when they are asked for
them. The store in memory compares times, the database the texts that it has of them, which have
fractions of different lengths. What is listed is the same in both: the roster of the steps that were
made, which has the sessions in the order of their last use.
-/

namespace Colloquy

open SessionStore (behind)
open StoreStep (roster)

/-- A store lists some sessions when it is asked for all, and when it is asked for those of an agent
it lists these and leaves out the others. -/
def SessionStore.Lists {σ : Type} [SessionStore σ] (listed : List Session) (s : σ) : Prop :=
  ∀ now, SessionStore.sessions now none s = .ok listed ∧
    ∀ agentId, SessionStore.sessions now (some agentId) s =
      .ok (listed.filter (·.agentId == agentId))

namespace MemoryStore

variable {store : MemoryStore} {listed : List Session} {steps : List StoreStep} {step : StoreStep}

/-- A store in memory has sessions that are listed by their last use. -/
def Enrolls (listed : List Session) (store : MemoryStore) : Prop :=
  ∃ sorted, InUseOrder (·.session.id) SessionLog.Newer store.logs sorted ∧
    sorted.map (·.session) = listed

private theorem session_pushed {sorted : List SessionLog} (message : Message)
    (horder : InUseOrder (·.session.id) SessionLog.Newer store.logs sorted) :
    (pushed message store).session =
      .used message.session message.createdAt (sorted.map (·.session)) := by
  have hfound : (sorted.map (·.session)).find? (·.id == message.session) =
      (store.find? message.session).map (·.session) := by
    rw [List.find?_map, find?, ← horder.find?_eq]
    rfl
  rw [pushed, Session.used, hfound]
  cases store.find? message.session <;> rfl

/-- A later step changes the sessions as it changes the roster. -/
private theorem Enrolls.run (h : Enrolls listed store) (hlisted : ListedByUse steps listed)
    (hbefore : ∀ earlier ∈ steps, earlier.Before step) :
    Enrolls (StoreStep.enroll listed step) (step.run store).2 := by
  obtain ⟨sorted, horder, rfl⟩ := h
  have hmem : ∀ log ∈ store.logs, log.session ∈ sorted.map (·.session) := fun log hlog =>
    List.mem_map_of_mem (horder.mem_iff.mpr hlog)
  have htime : ∀ log ∈ store.logs, log.session.updatedAt.before step.stamp.now = true :=
    fun log hlog => hlisted.before_of_mem hbefore (hmem log hlog)
  obtain ⟨stamp, call⟩ := step
  cases call with
  | openSession agentId title =>
    have hname : ∀ log ∈ store.logs, log.session.id ≠ stamp.name := fun log hlog =>
      hlisted.id_ne_of_opens hbefore rfl (hmem log hlog)
    simp only [StoreStep.run, SessionStore.openSession, filter_key_ne hname]
    exact ⟨_, horder.added (a := SessionLog.opened stamp.name agentId title stamp.now) hname htime,
      rfl⟩
  | append session draft =>
    let message := draft.toMessage stamp.name session stamp.now
    have hid : (pushed message store).session.id = session := id_pushed message store
    have hperm := pushInto_perm message horder.map_nodup
    have hothers : (sorted.filter (·.session.id != session)).map (·.session) =
        (sorted.map (·.session)).filter (·.id != session) := by
      rw [List.filter_map]
      rfl
    refine ⟨_, horder.moved (a := pushed message store) (by rwa [hid]) htime, ?_⟩
    rw [List.map_cons, hid, session_pushed message horder, hothers]
    rfl
  | recentHistory session limit => exact ⟨sorted, horder, rfl⟩
  | session? session => exact ⟨sorted, horder, rfl⟩
  | sessions agentId => exact ⟨sorted, horder, rfl⟩

theorem enrolls_behind (hbefore : steps.Pairwise StoreStep.Before) :
    Enrolls (roster steps) (behind steps empty) := by
  induction steps using List.reverseRecOn with
  | nil => exact ⟨[], .nil, rfl⟩
  | append_singleton steps step ih =>
    obtain ⟨hsteps, -, hlast⟩ := List.pairwise_append.mp hbefore
    rw [StoreStep.roster_concat, behind, List.foldl_append]
    exact (ih hsteps).run (listedByUse_roster hsteps) fun earlier hmem =>
      hlast earlier hmem step (List.mem_singleton_self _)

theorem Enrolls.lists (h : Enrolls listed store) : SessionStore.Lists listed store := by
  obtain ⟨sorted, horder, rfl⟩ := h
  have hall := byLastUse_filter horder fun _ => true
  rw [List.filter_true, List.filter_true] at hall
  intro now
  refine ⟨?_, fun agentId => ?_⟩
  · simp only [SessionStore.sessions, Option.all_none, List.filter_true, hall]
  · exact congrArg Except.ok (byLastUse_filter horder fun session => session.agentId == agentId)

end MemoryStore

/-- A session as a row. -/
def SessionRow.ofSession (session : Session) : SessionRow :=
  ⟨session.id, session.agentId, session.title, session.createdAt.storedText,
    session.updatedAt.storedText⟩

theorem SessionRow.session_ofSession (now : Instant) {session : Session}
    (hcreated : session.createdAt.Civil) (hupdated : session.updatedAt.Civil) :
    (SessionRow.ofSession session).session now = session := by
  rw [SessionRow.session, ofSession, Column.timeIn, Column.timeIn,
    Instant.ofStored?_storedText hcreated, Instant.ofStored?_storedText hupdated]
  rfl

namespace Database

variable {db : Database} {listed : List Session} {steps : List StoreStep} {step : StoreStep}

/-- Behind some steps, a database has sessions that are listed by their last use, as rows, and
messages of the steps that append. -/
structure Enrolls (steps : List StoreStep) (listed : List Session) (db : Database) : Prop where
  accepts : db.AcceptsLike fresh
  order : InUseOrder (·.id) SessionRow.Newer db.sessions (listed.map SessionRow.ofSession)
  civil : ∀ session ∈ listed, session.createdAt.Civil ∧ session.updatedAt.Civil
  message : ∀ row ∈ db.messages, ∃ step ∈ steps, step.appends = true ∧ step.stamp.name = row.id ∧
    step.left? = some row.session

namespace Enrolls

theorem nil : Enrolls [] [] fresh where
  accepts := ⟨rfl, rfl, rfl⟩
  order := .nil
  civil _ hmem := absurd hmem List.not_mem_nil
  message _ hmem := absurd hmem List.not_mem_nil

private theorem row_used {rows : List SessionRow}
    (horder : InUseOrder (·.id) SessionRow.Newer rows (listed.map SessionRow.ofSession))
    (session : SessionId) (time : Instant) :
    used session time.storedText rows = .ofSession (.used session time listed) := by
  have hfound : rows.find? (·.id == session) =
      (listed.find? (·.id == session)).map SessionRow.ofSession := by
    rw [← horder.find?_eq, List.find?_map]
    rfl
  rw [used, Session.used, hfound]
  cases listed.find? (·.id == session) <;> rfl

private theorem civil_used {time : Instant}
    (h : ∀ session ∈ listed, session.createdAt.Civil ∧ session.updatedAt.Civil)
    (session : SessionId) (hcivil : time.Civil) :
    (Session.used session time listed).createdAt.Civil ∧
      (Session.used session time listed).updatedAt.Civil := by
  refine ⟨?_, hcivil⟩
  rw [Session.used]
  cases hfound : listed.find? (·.id == session) with
  | none => exact hcivil
  | some found => exact (h found (List.mem_of_find?_eq_some hfound)).1

section Step

variable (h : Enrolls steps listed db) (hlisted : ListedByUse steps listed)
  (hbefore : ∀ earlier ∈ steps, earlier.Before step)

include h

/-- What a later step leaves as it was is still so behind it. -/
private theorem message_concat :
    ∀ row ∈ db.messages, ∃ earlier ∈ steps ++ [step], earlier.appends = true ∧
      earlier.stamp.name = row.id ∧ earlier.left? = some row.session := by
  intro row hrow
  obtain ⟨earlier, hmem, hmessage⟩ := h.message row hrow
  exact ⟨earlier, List.mem_append_left _ hmem, hmessage⟩

include hlisted hbefore

private theorem time_lt (hcivil : step.stamp.now.Civil) :
    ∀ row ∈ db.sessions, row.updatedAt < step.stamp.now.storedText := by
  intro row hrow
  obtain ⟨session, hmem, rfl⟩ := List.mem_map.mp (h.order.mem_iff.mpr hrow)
  exact Instant.storedText_lt (h.civil session hmem).2 hcivil (hlisted.before_of_mem hbefore hmem)

private theorem not_namesSession (hopens : step.opens = true) :
    ¬ db.NamesSession step.stamp.name := by
  rintro (⟨row, hrow, hid⟩ | ⟨row, hrow, hsession⟩)
  · obtain ⟨session, hmem, rfl⟩ := List.mem_map.mp (h.order.mem_iff.mpr hrow)
    exact hlisted.id_ne_of_opens hbefore hopens hmem hid
  · obtain ⟨earlier, hmem, -, -, hleft⟩ := h.message row hrow
    rw [hsession] at hleft
    exact (hbefore earlier hmem).session hopens hleft

omit hlisted in
private theorem not_namesMessage (happends : step.appends = true) :
    ¬ db.NamesMessage step.stamp.name := by
  rintro ⟨row, hrow, hid⟩
  obtain ⟨earlier, hmem, hearlier, hname, -⟩ := h.message row hrow
  exact (hbefore earlier hmem).message hearlier happends (hname.trans hid)

/-- A later step changes the sessions as it changes the roster. -/
private theorem run (hcivil : step.stamp.now.Civil) :
    Enrolls (steps ++ [step]) (StoreStep.enroll listed step) (step.run db).2 := by
  have htime := h.time_lt hlisted hbefore hcivil
  obtain ⟨stamp, call⟩ := step
  cases call with
  | openSession agentId title =>
    have hname := h.not_namesSession hlisted hbefore rfl
    have hkey : ∀ row ∈ db.sessions, row.id ≠ stamp.name := fun row hrow hid =>
      hname (.inl ⟨row, hrow, hid⟩)
    simp only [StoreStep.run, openSession_eq stamp agentId title db hname,
      if_pos (hasSessions_of_accepts h.accepts)]
    refine ⟨⟨h.accepts.schema, h.accepts.isOpen, h.accepts.updatesBlocked⟩,
      h.order.added hkey htime, ?_, h.message_concat⟩
    exact List.forall_mem_cons.mpr ⟨⟨hcivil, hcivil⟩, h.civil⟩
  | append session draft =>
    have hname := h.not_namesMessage hbefore rfl
    let time := stamp.now.storedText
    have hrow := row_used h.order session stamp.now
    have hid : (used session time db.sessions).id = session := by
      rw [hrow]
      exact Session.id_used session stamp.now listed
    have hperm : (touched session time (withSession session time db.sessions)).Perm
        (used session time db.sessions ::
          db.sessions.filter (·.id != (used session time db.sessions).id)) := by
      rw [hid]
      exact touched_perm session time h.order.map_nodup
    simp only [StoreStep.run, append_eq stamp session draft db hname,
      appendFault?_of_accepts h.accepts]
    refine ⟨⟨h.accepts.schema, h.accepts.isOpen, h.accepts.updatesBlocked⟩, ?_, ?_, ?_⟩
    · have hmoved := h.order.moved hperm htime
      rw [hid, List.filter_map, hrow] at hmoved
      exact hmoved
    · refine List.forall_mem_cons.mpr ⟨civil_used h.civil session hcivil, fun other hmem => ?_⟩
      exact h.civil other (List.mem_of_mem_filter hmem)
    · intro row hmem
      obtain hold | hnew := List.mem_append.mp hmem
      · exact h.message_concat row hold
      · obtain rfl := List.mem_singleton.mp hnew
        exact ⟨_, List.mem_concat_self, rfl, rfl, rfl⟩
  | recentHistory session limit => exact ⟨h.accepts, h.order, h.civil, h.message_concat⟩
  | session? session => exact ⟨h.accepts, h.order, h.civil, h.message_concat⟩
  | sessions agentId => exact ⟨h.accepts, h.order, h.civil, h.message_concat⟩

end Step

theorem lists (h : Enrolls steps listed db) : SessionStore.Lists listed db := by
  have hrows (p : SessionRow → Bool) (now : Instant) :
      (byLastUse (db.sessions.filter p)).map (SessionRow.session now) =
        listed.filter (p ∘ SessionRow.ofSession) := by
    rw [byLastUse_filter h.order, List.filter_map, List.map_map]
    conv_rhs => rw [← List.map_id (listed.filter _)]
    refine List.map_congr_left fun session hmem => ?_
    obtain ⟨hcreated, hupdated⟩ := h.civil session (List.mem_of_mem_filter hmem)
    exact SessionRow.session_ofSession now hcreated hupdated
  intro now
  refine ⟨?_, fun agentId => ?_⟩
  · simp only [SessionStore.sessions, if_pos (hasSessions_of_accepts h.accepts), hrows]
    exact congrArg Except.ok (List.filter_true _)
  · simp only [SessionStore.sessions, if_pos (hasSessions_of_accepts h.accepts), hrows]
    rfl

end Enrolls

theorem enrolls_behind (hbefore : steps.Pairwise StoreStep.Before)
    (hcivil : ∀ step ∈ steps, step.stamp.now.Civil) :
    Enrolls steps (roster steps) (SessionStore.behind steps fresh) := by
  induction steps using List.reverseRecOn with
  | nil => exact .nil
  | append_singleton steps step ih =>
    obtain ⟨hsteps, -, hlast⟩ := List.pairwise_append.mp hbefore
    obtain ⟨hcivil, hstep⟩ := List.forall_mem_append.mp hcivil
    rw [StoreStep.roster_concat, SessionStore.behind, List.foldl_append]
    exact (ih hsteps hcivil).run (listedByUse_roster hsteps)
      (fun earlier hmem => hlast earlier hmem step (List.mem_singleton_self _))
      (hstep step (List.mem_singleton_self _))

end Database

/-- Behind steps, one made later than the other, both stores list every session that a step opened or
appended to once, the one that was used last first; the sessions of an agent are listed in the same
order. The texts of the times in a database have the order of the times in the years 0 to 9999. -/
theorem sessions_by_last_use (steps : List StoreStep) (hbefore : steps.Pairwise StoreStep.Before) :
    ListedByUse steps (roster steps) ∧
      SessionStore.Lists (roster steps) (behind steps MemoryStore.empty) ∧
      ((∀ step ∈ steps, step.stamp.now.Civil) →
        SessionStore.Lists (roster steps) (behind steps Database.fresh)) := by
  refine ⟨listedByUse_roster hbefore, (MemoryStore.enrolls_behind hbefore).lists, ?_⟩
  intro hcivil
  exact (Database.enrolls_behind hbefore hcivil).lists

/-- Two sessions are opened and two appended to, at times with fractions of all lengths. -/
def visits : List StoreStep :=
  [⟨⟨⟨0, 0⟩, "#0"⟩, .openSession "bot" none⟩,
    ⟨⟨⟨0, 1500000⟩, "#1"⟩, .openSession "guide" (some "Tour")⟩,
    ⟨⟨⟨0, 20000000⟩, "m0"⟩, .append "walk-in" (.user "Hello?")⟩,
    ⟨⟨⟨0, 20000001⟩, "m1"⟩, .append "#0" (.user "Hi")⟩]

/-- The session that was opened first is listed first, for it was used last. -/
theorem sessions_by_last_use_visits :
    SessionStore.sessions ⟨1, 0⟩ none (behind visits Database.fresh) =
        .ok [⟨"#0", "bot", none, ⟨0, 0⟩, ⟨0, 20000001⟩⟩,
          ⟨"walk-in", "", none, ⟨0, 20000000⟩, ⟨0, 20000000⟩⟩,
          ⟨"#1", "guide", some "Tour", ⟨0, 1500000⟩, ⟨0, 1500000⟩⟩] ∧
      SessionStore.sessions ⟨1, 0⟩ (some "guide") (behind visits MemoryStore.empty) =
        .ok [⟨"#1", "guide", some "Tour", ⟨0, 1500000⟩, ⟨0, 1500000⟩⟩] := by
  have hcivil : ∀ step ∈ visits, step.stamp.now.Civil := by
    intro step hmem
    simp only [visits, List.mem_cons, List.not_mem_nil, or_false] at hmem
    obtain rfl | rfl | rfl | rfl := hmem <;> exact Instant.civil_of_first_day rfl (by decide)
  obtain ⟨-, hmemory, hdatabase⟩ := sessions_by_last_use visits (by decide)
  exact ⟨(hdatabase hcivil ⟨1, 0⟩).1, (hmemory ⟨1, 0⟩).2 "guide"⟩

end Colloquy
