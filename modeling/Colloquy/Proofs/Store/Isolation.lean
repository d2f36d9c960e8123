import Colloquy.Proofs.Store.Pages
import Colloquy.Proofs.Store.StoredRecords

/-!
# Sessions are isolated

What a store tells of a session depends on the steps that opened it and appended to it, and on no
others: these alone write its page. A history is the end of one list, the drafts of the session in
the order of their appending, which only grows at its end. The database has to read each of the
drafts back, and fails when it cannot.
-/

namespace Colloquy

namespace StoreStep

/-- One step does not bring a name that another one left behind. -/
structure Apart (step later : StoreStep) : Prop where
  /-- A session is opened under a new name. -/
  session : later.opens = true → step.left? ≠ some later.stamp.name
  /-- A message is appended under a new name. -/
  message : step.appends = true → later.appends = true → step.stamp.name ≠ later.stamp.name

instance (step later : StoreStep) : Decidable (step.Apart later) :=
  decidable_of_iff
    ((later.opens = true → step.left? ≠ some later.stamp.name) ∧
      (step.appends = true → later.appends = true → step.stamp.name ≠ later.stamp.name))
    ⟨fun ⟨session, message⟩ => ⟨session, message⟩, fun ⟨session, message⟩ => ⟨session, message⟩⟩

/-- Whether a step opens a session or appends to it. -/
def concerns (session : SessionId) (step : StoreStep) : Bool :=
  step.left? == some session

/-- The draft that a step appends to a session. -/
def draft? (session : SessionId) (step : StoreStep) : Option Draft :=
  match step.call with
  | .append other draft => if session = other then some draft else none
  | _ => none

/-- The card that a step gives to a session that has none. -/
def card? (session : SessionId) (step : StoreStep) : Option SessionCard :=
  match step.call with
  | .openSession agentId title =>
    if session = step.stamp.name then some ⟨session, agentId, title⟩ else none
  | .append other _ => if session = other then some ⟨session, "", none⟩ else none
  | _ => none

/-- The drafts that steps append to a session. -/
def drafts (session : SessionId) (steps : List StoreStep) : List Draft :=
  steps.filterMap (draft? session)

/-- The card that steps leave to a session: the first one that it is given. -/
def cardOf? (session : SessionId) (steps : List StoreStep) : Option SessionCard :=
  steps.findSome? (card? session)

section Concerns

variable {session : SessionId} {step step' : StoreStep} {steps steps' : List StoreStep}

/-- A step that concerns other sessions writes nothing on the page of a session. -/
private theorem page_of_not_concerns (h : step.concerns session = false) :
    step.draft? session = none ∧ step.card? session = none := by
  obtain ⟨stamp, call⟩ := step
  have hleft : left? ⟨stamp, call⟩ ≠ some session := beq_eq_false_iff_ne.mp h
  cases call with
  | openSession agentId title =>
    have hother : session ≠ stamp.name := fun hsame => hleft (congrArg some hsame.symm)
    exact ⟨rfl, if_neg hother⟩
  | append other draft =>
    have hother : session ≠ other := fun hsame => hleft (congrArg some hsame.symm)
    exact ⟨if_neg hother, if_neg hother⟩
  | _ => exact ⟨rfl, rfl⟩

/-- Steps that concern other sessions append nothing to a session. -/
theorem drafts_filter (session : SessionId) (steps : List StoreStep) :
    drafts session (steps.filter (·.concerns session)) = drafts session steps := by
  rw [drafts, List.filterMap_filter]
  refine List.filterMap_congr fun step _ => ?_
  split
  · rfl
  · next hother => exact (page_of_not_concerns (by simpa using hother)).1.symm

/-- Steps that concern other sessions give no card to a session. -/
theorem cardOf?_filter (session : SessionId) (steps : List StoreStep) :
    cardOf? session (steps.filter (·.concerns session)) = cardOf? session steps := by
  induction steps with
  | nil => rfl
  | cons step rest ih =>
    rw [cardOf?] at ih ⊢
    rw [List.filter_cons, cardOf?, List.findSome?_cons]
    split
    · rw [List.findSome?_cons, ih, cardOf?]
    · next hother => rw [(page_of_not_concerns (by simpa using hother)).2, ih, cardOf?]

private theorem Matches.draft?_eq (h : step.Matches id id step') :
    step'.draft? session = step.draft? session := by
  obtain ⟨stamp, call⟩ := step
  obtain ⟨hcall, -⟩ := h
  rw [draft?, draft?, hcall]
  cases call <;> rfl

private theorem Matches.card?_eq (h : step.Matches id id step') :
    step'.card? session = step.card? session := by
  obtain ⟨stamp, call⟩ := step
  obtain ⟨hcall, hopened⟩ := h
  rw [card?, card?, hcall]
  cases call with
  | openSession agentId title =>
    have hname : step'.stamp.name = stamp.name := hopened rfl
    simp only [StoreCall.renamed, hname]
  | _ => rfl

/-- Steps that ask for the same append the same to a session and give it the same card. -/
theorem pages_of_matches (session : SessionId) (h : List.Forall₂ (Matches id id) steps steps') :
    drafts session steps' = drafts session steps ∧
      cardOf? session steps' = cardOf? session steps := by
  induction h with
  | nil => exact ⟨rfl, rfl⟩
  | cons hstep _ ih =>
    simp only [drafts, cardOf?] at ih ⊢
    rw [List.filterMap_cons, List.filterMap_cons, List.findSome?_cons, List.findSome?_cons,
      hstep.draft?_eq, hstep.card?_eq, ih.1, ih.2]
    exact ⟨rfl, rfl⟩

end Concerns

end StoreStep

namespace SessionStore

variable {σ : Type} [SessionStore σ]

/-- The store behind some steps. -/
def behind (steps : List StoreStep) (s : σ) : σ :=
  steps.foldl (fun s step => (step.run s).2) s

/-- What a store tells of a session: its last messages without their names and times, and its
card. -/
def tells (now : Instant) (session : SessionId) (limit : Nat) (s : σ) :
    Except StoreFault (List Draft) × Except StoreFault (Option SessionCard) :=
  ((SessionStore.recentHistory now session limit s).map (·.map Message.draft),
    (SessionStore.session? now session s).map (·.map (·.card)))

end SessionStore

namespace PagedStore

open SessionStore

variable {σ : Type} [SessionStore σ] [ImpartialStore σ] [PagedStore σ] {s : σ} {step : StoreStep}
  {rest steps : List StoreStep}

/-- A store serves and has nothing yet under the names that steps bring. -/
structure Awaits (steps : List StoreStep) (s : σ) : Prop where
  serves : Serves s
  apart : steps.Pairwise StoreStep.Apart
  session : ∀ step ∈ steps, step.opens = true →
    card? step.stamp.name s = none ∧ kept step.stamp.name s = []
  message : ∀ step ∈ steps, step.appends = true → ImpartialStore.NewMessage step.stamp.name s

/-- A store without sessions: all pages are blank, and all names are new. -/
structure IsBlank (s : σ) : Prop where
  serves : Serves s
  card? : ∀ session, PagedStore.card? session s = none
  kept : ∀ session, PagedStore.kept session s = []
  isNew : ∀ name, ImpartialStore.NewMessage name s

theorem IsBlank.awaits (h : IsBlank s) (hapart : steps.Pairwise StoreStep.Apart) :
    Awaits steps s :=
  ⟨h.serves, hapart, fun _ _ _ => ⟨h.card? _, h.kept _⟩, fun _ _ _ => h.isNew _⟩

/-- A step writes on the page of a session what it has for it, and leaves the names of the steps
behind it as they are. -/
private theorem run_step (h : Awaits (step :: rest) s) :
    Awaits rest (step.run s).2 ∧ ∀ session,
      card? session (step.run s).2 = (card? session s).or (step.card? session) ∧
      kept session (step.run s).2 =
        kept session s ++ (step.draft? session).toList.map keep := by
  obtain ⟨hlater, hapart⟩ := List.pairwise_cons.mp h.apart
  obtain ⟨stamp, call⟩ := step
  have hsession := fun later hmem => h.session later (List.mem_cons_of_mem _ hmem)
  have hmessage := fun later hmem => h.message later (List.mem_cons_of_mem _ hmem)
  cases call with
  | openSession agentId title =>
    obtain ⟨hnone, hblank⟩ := h.session _ List.mem_cons_self rfl
    obtain ⟨s', hopen, hserves, hcard, hkept⟩ := opened stamp agentId title h.serves hnone hblank
    have hrun : (StoreStep.run ⟨stamp, .openSession agentId title⟩ s).2 = s' :=
      congrArg Prod.snd hopen
    rw [hrun]
    refine ⟨⟨hserves, hapart, fun later hmem hopens => ?_, fun later hmem happends => ?_⟩,
      fun session => ⟨?_, ?_⟩⟩
    · have hother : later.stamp.name ≠ stamp.name := fun hsame =>
        (hlater later hmem).session hopens (congrArg some hsame.symm)
      rw [hcard, if_neg hother, hkept]
      exact hsession later hmem hopens
    · have hnew := ImpartialStore.new_opened (hmessage later hmem happends) stamp agentId title
      rwa [hopen] at hnew
    · rw [hcard]
      simp only [StoreStep.card?]
      split
      · next hsame => rw [hsame, hnone, Option.none_or]
      · rw [Option.or_none]
    · rw [hkept]
      exact (List.append_nil _).symm
  | append other draft =>
    have hnew := h.message _ List.mem_cons_self rfl
    obtain ⟨s', happend, hserves, hcard, hkept⟩ := appended stamp other draft h.serves hnew
    have hrun : (StoreStep.run ⟨stamp, .append other draft⟩ s).2 = s' := congrArg Prod.snd happend
    rw [hrun]
    refine ⟨⟨hserves, hapart, fun later hmem hopens => ?_, fun later hmem happends => ?_⟩,
      fun session => ⟨?_, ?_⟩⟩
    · have hother : later.stamp.name ≠ other := fun hsame =>
        (hlater later hmem).session hopens (congrArg some hsame.symm)
      rw [hcard, if_neg hother, hkept, if_neg hother, List.append_nil]
      exact hsession later hmem hopens
    · have hname : later.stamp.name ≠ stamp.name :=
        ((hlater later hmem).message rfl happends).symm
      have hstill := ImpartialStore.new_appended (hmessage later hmem happends) hnew hname other
        draft
      rwa [happend] at hstill
    · rw [hcard]
      simp only [StoreStep.card?]
      split
      · next hsame =>
        rw [hsame]
        cases card? other s <;> rfl
      · rw [Option.or_none]
    · rw [hkept]
      simp only [StoreStep.draft?]
      split <;> rfl
  | recentHistory other limit | session? other | sessions agentId =>
    exact ⟨⟨h.serves, hapart, hsession, hmessage⟩, fun session =>
      ⟨Option.or_none.symm, (List.append_nil _).symm⟩⟩

/-- Steps write on the page of a session what they have for it, one behind another. -/
theorem pages_behind (h : Awaits steps s) (session : SessionId) :
    Serves (behind steps s) ∧
      card? session (behind steps s) = (card? session s).or (StoreStep.cardOf? session steps) ∧
      kept session (behind steps s) =
        kept session s ++ (StoreStep.drafts session steps).map keep := by
  induction steps generalizing s with
  | nil => exact ⟨h.serves, Option.or_none.symm, (List.append_nil _).symm⟩
  | cons step rest ih =>
    obtain ⟨hawaits, hpages⟩ := run_step h
    obtain ⟨hcard, hkept⟩ := hpages session
    obtain ⟨hserves, hcards, hdrafts⟩ := ih hawaits
    refine ⟨hserves, hcards.trans ?_, hdrafts.trans ?_⟩
    · rw [hcard, Option.or_assoc, StoreStep.cardOf?, StoreStep.cardOf?, List.findSome?_cons]
      cases step.card? session <;> rfl
    · rw [hkept, List.append_assoc, ← List.map_append, StoreStep.drafts, StoreStep.drafts,
        List.filterMap_cons]
      cases step.draft? session <;> rfl

/-- A store tells of a session what the steps had for it. -/
theorem tells_behind (hblank : IsBlank s) (hapart : steps.Pairwise StoreStep.Apart) (now : Instant)
    (session : SessionId) (limit : Nat) :
    tells now session limit (behind steps s) =
      ((lastOf (window σ limit) (StoreStep.drafts session steps)).mapM (readBack σ),
        .ok (StoreStep.cardOf? session steps)) := by
  obtain ⟨hserves, hcard, hkept⟩ := pages_behind (hblank.awaits hapart) session
  rw [hblank.card?, Option.none_or] at hcard
  rw [hblank.kept, List.nil_append] at hkept
  rw [tells, history now session limit hserves hkept, told now session hserves, hcard]

/-- Steps that ask for the same where a session is concerned make a store tell the same of it. -/
theorem tells_of_matches {steps' : List StoreStep} (hblank : IsBlank s) {session : SessionId}
    (hapart : steps.Pairwise StoreStep.Apart) (hapart' : steps'.Pairwise StoreStep.Apart)
    (hmatches : List.Forall₂ (StoreStep.Matches id id) (steps.filter (·.concerns session)) steps')
    (now now' : Instant) (limit : Nat) :
    tells now session limit (behind steps s) = tells now' session limit (behind steps' s) := by
  obtain ⟨hdrafts, hcard⟩ := StoreStep.pages_of_matches session hmatches
  rw [StoreStep.drafts_filter] at hdrafts
  rw [StoreStep.cardOf?_filter] at hcard
  rw [tells_behind hblank hapart, tells_behind hblank hapart', hdrafts, hcard]

end PagedStore

theorem MemoryStore.isBlank_empty : PagedStore.IsBlank MemoryStore.empty where
  serves := trivial
  card? _ := rfl
  kept _ := rfl
  isNew _ := trivial

theorem Database.isBlank_fresh : PagedStore.IsBlank Database.fresh where
  serves := by
    change Database.fresh.appendFault? = none
    decide
  card? _ := rfl
  kept _ := rfl
  isNew _ := by
    rintro ⟨row, hmem, -⟩
    exact absurd hmem List.not_mem_nil

section Isolation

open SessionStore

/-- Behind any steps, both stores tell of a session what they tell behind the steps that concern it,
made at other times and under other names of messages. They tell its card, and of its drafts, which
are only ever added to at the end, as many of the last as they are asked for; the database tells no
more than it can number, each of them as it is read back. -/
theorem sessions_isolated {steps steps' : List StoreStep} (session : SessionId)
    (hapart : steps.Pairwise StoreStep.Apart) (hapart' : steps'.Pairwise StoreStep.Apart)
    (hmatches : List.Forall₂ (StoreStep.Matches id id) (steps.filter (·.concerns session)) steps')
    (now now' : Instant) (limit : Nat) :
    let drafts := StoreStep.drafts session steps
    let card := StoreStep.cardOf? session steps
    (∀ later, StoreStep.drafts session (steps ++ later) =
      drafts ++ StoreStep.drafts session later) ∧
    (tells now session limit (behind steps MemoryStore.empty) =
        tells now' session limit (behind steps' MemoryStore.empty) ∧
      tells now session limit (behind steps MemoryStore.empty) =
        (.ok (lastOf limit drafts), .ok card)) ∧
    tells now session limit (behind steps Database.fresh) =
        tells now' session limit (behind steps' Database.fresh) ∧
      tells now session limit (behind steps Database.fresh) =
        ((lastOf (min limit Column.maxNumber) drafts).mapM Draft.readBack, .ok card) ∧
      ((∀ draft ∈ drafts, draft.ReadsBack) →
        tells now session limit (behind steps Database.fresh) =
          (.ok (lastOf (min limit Column.maxNumber) drafts), .ok card)) := by
  intro drafts card
  have hmemory := PagedStore.tells_behind MemoryStore.isBlank_empty hapart now session limit
  have hdatabase := PagedStore.tells_behind Database.isBlank_fresh hapart now session limit
  refine ⟨fun later => List.filterMap_append, ⟨?_, hmemory.trans ?_⟩, ?_, hdatabase,
    fun hread => ?_⟩
  · exact PagedStore.tells_of_matches MemoryStore.isBlank_empty hapart hapart' hmatches now now'
      limit
  · exact Prod.ext (mapM_eq_ok_self fun _ _ => rfl) rfl
  · exact PagedStore.tells_of_matches Database.isBlank_fresh hapart hapart' hmatches now now' limit
  · have hlast : (lastOf (min limit Column.maxNumber) drafts).mapM Draft.readBack =
        .ok (lastOf (min limit Column.maxNumber) drafts) :=
      mapM_eq_ok_self fun draft hmem => (hread draft (List.mem_of_mem_drop hmem)).readBack_eq
    exact hdatabase.trans (Prod.ext hlast rfl)

section Crowd

/-- A conversation among others, one of which was opened before it and one behind. -/
private def crowd : List StoreStep :=
  [⟨⟨⟨0, 0⟩, "a"⟩, .openSession "bot" none⟩,
    ⟨⟨⟨1, 0⟩, "b"⟩, .openSession "bot" (some "Hello")⟩,
    ⟨⟨⟨2, 0⟩, "m0"⟩, .append "a" (.user "The password is 1234.")⟩,
    ⟨⟨⟨3, 0⟩, "m1"⟩, .append "b" (.user "Hello")⟩,
    ⟨⟨⟨4, 0⟩, "m2"⟩, .append "c" (.user "Anybody there?")⟩,
    ⟨⟨⟨5, 0⟩, "m3"⟩, .append "b" (.user "What is the password?")⟩]

/-- The same conversation alone. -/
private def alone : List StoreStep :=
  [⟨⟨⟨70, 0⟩, "b"⟩, .openSession "bot" (some "Hello")⟩,
    ⟨⟨⟨71, 0⟩, "n0"⟩, .append "b" (.user "Hello")⟩,
    ⟨⟨⟨72, 0⟩, "n1"⟩, .append "b" (.user "What is the password?")⟩]

private theorem readsBack_user (content : String) : (Draft.user content).ReadsBack := by
  have hnone : ∀ record ∈ ([] : List ExecutionRecord), record.Storable := nofun
  exact ExecutionRecord.readAs?_printList hnone

/-- Nothing of the other conversations is told. -/
theorem sessions_isolated_crowd :
    tells ⟨9, 0⟩ "b" 5 (behind crowd MemoryStore.empty) =
        tells ⟨90, 0⟩ "b" 5 (behind alone MemoryStore.empty) ∧
      tells ⟨9, 0⟩ "b" 5 (behind crowd Database.fresh) =
        tells ⟨90, 0⟩ "b" 5 (behind alone Database.fresh) ∧
      tells ⟨9, 0⟩ "b" 5 (behind crowd Database.fresh) =
        (.ok [.user "Hello", .user "What is the password?"],
          .ok (some ⟨"b", "bot", some "Hello"⟩)) := by
  have hmatches : List.Forall₂ (StoreStep.Matches id id) (crowd.filter (·.concerns "b")) alone :=
    .cons ⟨rfl, fun _ => rfl⟩ (.cons ⟨rfl, nofun⟩ (.cons ⟨rfl, nofun⟩ .nil))
  obtain ⟨-, ⟨hmemory, -⟩, hdatabase, -, hread⟩ := sessions_isolated "b" (by decide) (by decide)
    hmatches ⟨9, 0⟩ ⟨90, 0⟩ 5
  refine ⟨hmemory, hdatabase, (hread ?_).trans ?_⟩
  · intro draft hmem
    obtain rfl | rfl : draft = .user "Hello" ∨ draft = .user "What is the password?" := by
      simpa [StoreStep.drafts, crowd, StoreStep.draft?, eq_comm] using hmem
    · exact readsBack_user _
    · exact readsBack_user _
  · rfl

end Crowd

/-- A message is accepted whose records are nested too deep to be read back, and from then on the
database tells no history in which it is, although it is the last message of its session. -/
theorem tells_nested :
    let step : StoreStep := ⟨⟨⟨0, 0⟩, "m0"⟩, .append "s" (Database.nestedDraft 125)⟩
    [step].Pairwise StoreStep.Apart ∧
      answers [step] Database.fresh = [.ok .taken] ∧
      lastOf 1 (StoreStep.drafts "s" [step]) = [Database.nestedDraft 125] ∧
      (tells ⟨1, 0⟩ "s" 1 (behind [step] Database.fresh)).1 =
        .error (.serialization "tool_records: recursion limit exceeded at line 1 column 235") := by
  intro step
  have hapart : [step].Pairwise StoreStep.Apart := List.pairwise_singleton ..
  have hdrafts : StoreStep.drafts "s" [step] = [Database.nestedDraft 125] := rfl
  have hlast (limit : Nat) (hlimit : 0 < limit) :
      lastOf limit [Database.nestedDraft 125] = [Database.nestedDraft 125] := by
    rw [lastOf, List.length_singleton, Nat.sub_eq_zero_of_le hlimit]
    rfl
  have hread : (lastOf (min 1 Column.maxNumber) [Database.nestedDraft 125]).mapM Draft.readBack =
      .error (.serialization "tool_records: recursion limit exceeded at line 1 column 235") := by
    rw [hlast _ (by decide), List.mapM_cons, Database.readBack_nestedDraft]
    rfl
  have htold := PagedStore.tells_behind Database.isBlank_fresh hapart ⟨1, 0⟩ "s" 1
  obtain ⟨db, happend, -⟩ := PagedStore.appended step.stamp "s" (Database.nestedDraft 125)
    Database.isBlank_fresh.serves (Database.isBlank_fresh.isNew _)
  refine ⟨hapart, ?_, hlast 1 (by decide), ?_⟩
  · have hanswer : (step.run Database.fresh).1 = .ok .taken :=
      congrArg (fun outcome => outcome.1.map fun _ => StoreAnswer.taken) happend
    rw [answers, answers, hanswer]
  · exact (congrArg Prod.fst htold).trans hread

end Isolation

end Colloquy
