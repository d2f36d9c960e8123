import Colloquy.Proofs.Store.Isolation
import Mathlib.Data.List.Induction

/-!
# The roster of the sessions

Steps open sessions and append to them, and each of them moves its session to the front of a roster.
Made at later and later times, the steps leave a roster that is ordered by the last use of its
sessions: each session that a step opened or appended to is on it once, with the time of the last
such step, and every session was used later than those behind it.
-/

namespace Colloquy

namespace StoreStep

section Uses

variable {session : SessionId} {steps : List StoreStep} {step : StoreStep}

/-- The times at which steps opened a session or appended to it. -/
def uses (session : SessionId) (steps : List StoreStep) : List Instant :=
  (steps.filter (·.concerns session)).map (·.stamp.now)

theorem uses_concat_self (h : step.left? = some session) :
    uses session (steps ++ [step]) = uses session steps ++ [step.stamp.now] := by
  have hconcerns : step.concerns session = true := by simp [concerns, h]
  rw [uses, uses, List.filter_append, List.filter_cons_of_pos hconcerns, List.filter_nil,
    List.map_append, List.map_singleton]

theorem uses_concat_other (h : step.left? ≠ some session) :
    uses session (steps ++ [step]) = uses session steps := by
  have hconcerns : ¬ step.concerns session = true := by simpa [concerns] using h
  rw [uses, uses, List.filter_append, List.filter_cons_of_neg hconcerns, List.filter_nil,
    List.append_nil]

/-- A use is that of a step. -/
theorem exists_of_mem_uses {time : Instant} (h : time ∈ uses session steps) :
    ∃ step ∈ steps, step.left? = some session ∧ step.stamp.now = time := by
  obtain ⟨step, hmem, rfl⟩ := List.mem_map.mp h
  obtain ⟨hmem, hconcerns⟩ := List.mem_filter.mp hmem
  exact ⟨step, hmem, by simpa [concerns] using hconcerns, rfl⟩

section Alone

variable (h : ∀ step ∈ steps, step.left? ≠ some session)

include h

private theorem filter_concerns_eq_nil : steps.filter (·.concerns session) = [] := by
  rw [List.filter_eq_nil_iff]
  intro step hmem
  simpa [concerns] using h step hmem

/-- Steps that leave a session alone do not use it. -/
theorem uses_eq_nil : uses session steps = [] := by
  rw [uses, filter_concerns_eq_nil h, List.map_nil]

/-- Steps that leave a session alone give it no card. -/
theorem cardOf?_eq_none : cardOf? session steps = none := by
  rw [← cardOf?_filter, filter_concerns_eq_nil h]
  rfl

end Alone

theorem cardOf?_concat :
    cardOf? session (steps ++ [step]) = (cardOf? session steps).or (step.card? session) := by
  rw [cardOf?, cardOf?, List.findSome?_append, List.findSome?_cons, List.findSome?_nil]
  cases step.card? session <;> rfl

end Uses

end StoreStep

/-- The session as it is used at a time: as it was in a roster, or else new and without an agent. -/
def Session.used (session : SessionId) (time : Instant) (roster : List Session) : Session :=
  { (roster.find? (·.id == session)).getD ⟨session, "", none, time, time⟩ with updatedAt := time }

theorem Session.id_used (session : SessionId) (time : Instant) (roster : List Session) :
    (Session.used session time roster).id = session := by
  rw [used]
  cases hfound : roster.find? (·.id == session) with
  | none => rfl
  | some found => simpa using List.find?_some hfound

namespace StoreStep

/-- The roster behind a step: the session that it opened or appended to comes first. -/
def enroll (roster : List Session) (step : StoreStep) : List Session :=
  match step.call with
  | .openSession agentId title =>
    ⟨step.stamp.name, agentId, title, step.stamp.now, step.stamp.now⟩ :: roster
  | .append session _ =>
    .used session step.stamp.now roster :: roster.filter (·.id != session)
  | _ => roster

/-- The roster behind some steps. -/
def roster (steps : List StoreStep) : List Session :=
  steps.foldl enroll []

theorem roster_concat (steps : List StoreStep) (step : StoreStep) :
    roster (steps ++ [step]) = enroll (roster steps) step :=
  List.foldl_append ..

end StoreStep

open StoreStep (uses cardOf? enroll roster)

/-- Sessions in the order of their last use, as some steps leave them. -/
structure ListedByUse (steps : List StoreStep) (listed : List Session) : Prop where
  /-- No session is listed twice. -/
  nodup : (listed.map (·.id)).Nodup
  /-- Those sessions are listed that a step opened or appended to. -/
  mem_iff : ∀ session, session ∈ listed.map (·.id) ↔ ∃ step ∈ steps, step.left? = some session
  /-- A session has the agent and the title that it was opened with. -/
  card : ∀ session ∈ listed, cardOf? session.id steps = some session.card
  /-- A session was created at its first use. -/
  created : ∀ session ∈ listed, (uses session.id steps).head? = some session.createdAt
  /-- A session was last updated at its last use. -/
  updated : ∀ session ∈ listed, (uses session.id steps).getLast? = some session.updatedAt
  /-- Every session was used later than those behind it. -/
  newer : listed.Pairwise fun session other => other.updatedAt.before session.updatedAt = true

namespace ListedByUse

variable {steps : List StoreStep} {listed : List Session} {step : StoreStep} {session : Session}

theorem nil : ListedByUse [] [] :=
  ⟨.nil, by simp, by simp, by simp, by simp, .nil⟩

/-- The last use of a listed session is that of a step. -/
theorem exists_step (h : ListedByUse steps listed) (hmem : session ∈ listed) :
    ∃ step ∈ steps, step.left? = some session.id ∧ step.stamp.now = session.updatedAt :=
  StoreStep.exists_of_mem_uses (List.mem_of_getLast? (h.updated session hmem))

/-- What is listed behind the session of a step is left alone by the step. -/
private theorem left?_ne_of_mem_filter {id : SessionId} (hleft : step.left? = some id)
    (hmem : session ∈ listed.filter (·.id != id)) :
    session ∈ listed ∧ step.left? ≠ some session.id := by
  obtain ⟨hmem, hother⟩ := List.mem_filter.mp hmem
  exact ⟨hmem, by simpa [hleft] using Ne.symm (bne_iff_ne.mp hother)⟩

section Concat

variable (h : ListedByUse steps listed) (hbefore : ∀ earlier ∈ steps, earlier.Before step)

include h

/-- A step that leaves no session behind changes nothing. -/
private theorem skipped (hleft : step.left? = none) : ListedByUse (steps ++ [step]) listed where
  nodup := h.nodup
  mem_iff id := by simp [h.mem_iff, hleft]
  card session hmem := by rw [StoreStep.cardOf?_concat, h.card session hmem, Option.some_or]
  created session hmem := by
    rw [StoreStep.uses_concat_other (by simp [hleft]), h.created session hmem]
  updated session hmem := by
    rw [StoreStep.uses_concat_other (by simp [hleft]), h.updated session hmem]
  newer := h.newer

include hbefore

/-- The listed sessions were used before a later step. -/
theorem before_of_mem (hmem : session ∈ listed) :
    session.updatedAt.before step.stamp.now = true := by
  obtain ⟨earlier, hearlier, -, htime⟩ := h.exists_step hmem
  rw [← htime]
  exact (hbefore earlier hearlier).time

/-- A session that a step opens was not listed. -/
theorem id_ne_of_opens (hopens : step.opens = true) (hmem : session ∈ listed) :
    session.id ≠ step.stamp.name := by
  intro hname
  obtain ⟨earlier, hearlier, hleft, -⟩ := h.exists_step hmem
  rw [hname] at hleft
  exact (hbefore earlier hearlier).session hopens hleft

/-- A session that is used at the time of a step comes first, and what was listed of it goes. -/
private theorem moved {a : Session} (hleft : step.left? = some a.id)
    (htime : a.updatedAt = step.stamp.now)
    (hcard : cardOf? a.id (steps ++ [step]) = some a.card)
    (hcreated : (uses a.id steps).head?.getD step.stamp.now = a.createdAt) :
    ListedByUse (steps ++ [step]) (a :: listed.filter (·.id != a.id)) where
  nodup := by
    rw [List.map_cons, List.nodup_cons]
    refine ⟨?_, h.nodup.sublist (List.filter_sublist.map _)⟩
    simp [List.mem_map, List.mem_filter]
  mem_iff id := by
    by_cases hid : id = a.id
    · subst hid
      simp [hleft]
    · have hkept : id ∈ (listed.filter (·.id != a.id)).map (·.id) ↔
          id ∈ listed.map (·.id) := by
        simp only [List.mem_map, List.mem_filter, bne_iff_ne]
        constructor
        · rintro ⟨session, ⟨hmem, -⟩, rfl⟩
          exact ⟨session, hmem, rfl⟩
        · rintro ⟨session, hmem, rfl⟩
          exact ⟨session, ⟨hmem, hid⟩, rfl⟩
      have hstep : step.left? ≠ some id := by simpa [hleft] using Ne.symm hid
      rw [List.map_cons, List.mem_cons, hkept, h.mem_iff]
      simp [hid, hstep]
  card session hmem := by
    obtain rfl | hmem := List.mem_cons.mp hmem
    · exact hcard
    · rw [StoreStep.cardOf?_concat, h.card session (List.mem_of_mem_filter hmem), Option.some_or]
  created session hmem := by
    obtain rfl | hmem := List.mem_cons.mp hmem
    · rw [StoreStep.uses_concat_self hleft, List.head?_append, ← hcreated]
      cases (uses session.id steps).head? <;> rfl
    · obtain ⟨hmem, hstep⟩ := left?_ne_of_mem_filter hleft hmem
      rw [StoreStep.uses_concat_other hstep, h.created session hmem]
  updated session hmem := by
    obtain rfl | hmem := List.mem_cons.mp hmem
    · rw [StoreStep.uses_concat_self hleft, htime, List.getLast?_concat]
    · obtain ⟨hmem, hstep⟩ := left?_ne_of_mem_filter hleft hmem
      rw [StoreStep.uses_concat_other hstep, h.updated session hmem]
  newer := by
    refine .cons (fun session hmem => ?_) (h.newer.filter _)
    rw [htime]
    exact h.before_of_mem hbefore (List.mem_of_mem_filter hmem)

end Concat

/-- What steps left of a session is listed under its id. -/
private theorem find?_cases (h : ListedByUse steps listed) (id : SessionId) :
    (listed.find? (·.id == id) = none ∧ cardOf? id steps = none ∧ uses id steps = []) ∨
      ∃ session, listed.find? (·.id == id) = some session ∧
        cardOf? id steps = some session.card ∧ (uses id steps).head? = some session.createdAt := by
  cases hfound : listed.find? (·.id == id) with
  | none =>
    have halone : ∀ step ∈ steps, step.left? ≠ some id := by
      intro step hmem hleft
      obtain ⟨session, hlisted, hid⟩ := List.mem_map.mp ((h.mem_iff id).mpr ⟨step, hmem, hleft⟩)
      exact List.find?_eq_none.mp hfound session hlisted (by simpa using hid)
    exact .inl ⟨rfl, StoreStep.cardOf?_eq_none halone, StoreStep.uses_eq_nil halone⟩
  | some session =>
    have hid : session.id = id := by simpa using List.find?_some hfound
    have hmem := List.mem_of_find?_eq_some hfound
    subst hid
    exact .inr ⟨session, rfl, h.card session hmem, h.created session hmem⟩

/-- A later step moves the session that it opens or appends to to the front. -/
theorem enroll (h : ListedByUse steps listed) (hbefore : ∀ earlier ∈ steps, earlier.Before step) :
    ListedByUse (steps ++ [step]) (StoreStep.enroll listed step) := by
  obtain ⟨stamp, call⟩ := step
  cases call with
  | openSession agentId title =>
    have hothers : listed.filter (·.id != stamp.name) = listed :=
      filter_key_ne fun session hmem => h.id_ne_of_opens hbefore rfl hmem
    have halone : ∀ earlier ∈ steps, earlier.left? ≠ some stamp.name := fun earlier hmem =>
      (hbefore earlier hmem).session rfl
    have hcard := StoreStep.cardOf?_eq_none halone
    have huses := StoreStep.uses_eq_nil halone
    have hmoved := h.moved (a := ⟨stamp.name, agentId, title, stamp.now, stamp.now⟩) hbefore rfl
      rfl (by simp [StoreStep.cardOf?_concat, hcard, StoreStep.card?, Session.card])
      (by simp [huses])
    rwa [hothers] at hmoved
  | append session draft =>
    have hid := Session.id_used session stamp.now listed
    have hfront : cardOf? session (steps ++ [⟨stamp, .append session draft⟩]) =
          some (Session.used session stamp.now listed).card ∧
        (uses session steps).head?.getD stamp.now =
          (Session.used session stamp.now listed).createdAt := by
      rw [StoreStep.cardOf?_concat, Session.used]
      obtain ⟨hfound, hcard, huses⟩ | ⟨found, hfound, hcard, hcreated⟩ := h.find?_cases session
      · simp [hfound, hcard, huses, StoreStep.card?, Session.card]
      · rw [hfound, hcard, hcreated]
        exact ⟨rfl, rfl⟩
    have hmoved := h.moved (a := Session.used session stamp.now listed) hbefore
      (congrArg some hid.symm) rfl (by rw [hid]; exact hfront.1) (by rw [hid]; exact hfront.2)
    rwa [hid] at hmoved
  | recentHistory session limit => exact h.skipped rfl
  | session? session => exact h.skipped rfl
  | sessions agentId => exact h.skipped rfl

end ListedByUse

/-- The roster behind steps, one made later than the other, lists the sessions by their last use. A
session is opened under a new name, so this is the last append to it, or its opening if there is
none. -/
theorem listedByUse_roster {steps : List StoreStep} (hbefore : steps.Pairwise StoreStep.Before) :
    ListedByUse steps (roster steps) := by
  induction steps using List.reverseRecOn with
  | nil => exact .nil
  | append_singleton steps step ih =>
    obtain ⟨hsteps, -, hlast⟩ := List.pairwise_append.mp hbefore
    rw [StoreStep.roster_concat]
    exact (ih hsteps).enroll fun earlier hmem => hlast earlier hmem step (List.mem_singleton_self _)

end Colloquy
