import Colloquy.Proofs.Store.DatabaseLedger

/-!
# Stores page by page

A store keeps a page for each session: its card and what was appended to it. Opening a session
writes the card of its page and appending writes behind its page, and neither looks at another page.
Both stores keep pages, and what a store tells of a session is on its page.
-/

namespace Colloquy

/-- A store that keeps a page for each session. -/
class PagedStore (σ : Type) [SessionStore σ] [ImpartialStore σ] where
  /-- What is kept of a draft. -/
  Kept : Type
  /-- Keeps a draft. -/
  keep : Draft → Kept
  /-- What becomes of a draft that is read back. -/
  readBack : Draft → Except StoreFault Draft
  /-- How many drafts are read where some number of them is asked for. -/
  window : Nat → Nat
  /-- Whether a store serves: it takes what it is given and tells what it is asked for. -/
  Serves : σ → Prop
  /-- The card on the page of a session. -/
  card? : SessionId → σ → Option SessionCard
  /-- What was appended on the page of a session. -/
  kept : SessionId → σ → List Kept
  /-- A session that is opened on a blank page gets its card. -/
  opened (stamp : Stamp) (agentId : String) (title : Option String) {s : σ} (hserves : Serves s)
    (hcard : card? stamp.name s = none) (hkept : kept stamp.name s = []) :
    ∃ s', SessionStore.openSession stamp agentId title s = (.ok stamp.name, s') ∧ Serves s' ∧
      (∀ session, card? session s' =
        if session = stamp.name then some ⟨stamp.name, agentId, title⟩ else card? session s) ∧
      ∀ session, kept session s' = kept session s
  /-- A message under a new name comes last on the page of its session. -/
  appended (stamp : Stamp) (session : SessionId) (draft : Draft) {s : σ} (hserves : Serves s)
    (hnew : ImpartialStore.NewMessage stamp.name s) :
    ∃ s', SessionStore.append stamp session draft s = (.ok stamp.name, s') ∧ Serves s' ∧
      (∀ other, card? other s' =
        if other = session then some ((card? session s).getD ⟨session, "", none⟩)
        else card? other s) ∧
      ∀ other, kept other s' = kept other s ++ if other = session then [keep draft] else []
  /-- A history is read from the end of a page. -/
  history (now : Instant) (session : SessionId) (limit : Nat) {s : σ} (hserves : Serves s)
    {drafts : List Draft} (hkept : kept session s = drafts.map keep) :
    (SessionStore.recentHistory now session limit s).map (·.map Message.draft) =
      (lastOf (window limit) drafts).mapM readBack
  /-- A session is told by its card. -/
  told (now : Instant) (session : SessionId) {s : σ} (hserves : Serves s) :
    (SessionStore.session? now session s).map (·.map (·.card)) = .ok (card? session s)

namespace MemoryStore

/-- The card of a session. -/
def card? (session : SessionId) (store : MemoryStore) : Option SessionCard :=
  (store.find? session).map (·.session.card)

variable {store : MemoryStore}

private theorem card?_openSession (stamp : Stamp) (agentId : String) (title : Option String)
    (session : SessionId) :
    card? session (SessionStore.openSession stamp agentId title store).2 =
      if session = stamp.name then some ⟨stamp.name, agentId, title⟩
      else card? session store := by
  split
  · next hsame => rw [hsame, card?, find?_openSession_self]; rfl
  · next hother => rw [card?, find?_openSession_other stamp hother, card?]

private theorem card?_append (stamp : Stamp) (session : SessionId) (draft : Draft)
    (other : SessionId) :
    card? other (SessionStore.append stamp session draft store).2 =
      if other = session then some ((card? session store).getD ⟨session, "", none⟩)
      else card? other store := by
  split
  · next hsame =>
    rw [hsame, card?, find?_append_self, card?]
    cases store.find? session <;> rfl
  · next hother => rw [card?, find?_append_other stamp hother, card?]

/-- Nothing is said by opening a session under a name under which nothing was said. -/
theorem drafts_behind_openSession (stamp : Stamp) (agentId : String) (title : Option String)
    {session : SessionId} (hblank : session = stamp.name → store.drafts session = []) :
    drafts (SessionStore.openSession stamp agentId title store).2 session =
      store.drafts session := by
  by_cases hsame : session = stamp.name
  · rw [hblank hsame, hsame, drafts_openSession]
  · rw [drafts, drafts, find?_openSession_other stamp hsame]

/-- A message comes last in its session and in no other. -/
theorem drafts_behind_append (stamp : Stamp) (session : SessionId) (draft : Draft)
    (other : SessionId) :
    drafts (SessionStore.append stamp session draft store).2 other =
      store.drafts other ++ if other = session then [draft] else [] := by
  split
  · next hsame => rw [hsame, drafts_append]
  · next hother => rw [drafts, drafts, find?_append_other stamp hother, List.append_nil]

/-- A history is the end of what was said. -/
theorem draft_recentHistory (now : Instant) (session : SessionId) (limit : Nat) :
    (SessionStore.recentHistory now session limit store).map (·.map Message.draft) =
      .ok (lastOf limit (store.drafts session)) := by
  simp only [SessionStore.recentHistory, drafts]
  cases store.find? session with
  | none => simp [Except.map, lastOf]
  | some log => simp only [Except.map, Option.map_some, Option.getD_some, map_lastOf]

instance : PagedStore MemoryStore where
  Kept := Draft
  keep draft := draft
  readBack := .ok
  window limit := limit
  Serves _ := True
  card? := card?
  kept session store := store.drafts session
  opened stamp agentId title store _ _ hkept :=
    ⟨(SessionStore.openSession stamp agentId title store).2, rfl, trivial,
      card?_openSession stamp agentId title,
      fun _ => drafts_behind_openSession stamp agentId title fun hsame => hsame ▸ hkept⟩
  appended stamp session draft store _ _ :=
    ⟨(SessionStore.append stamp session draft store).2, rfl, trivial,
      card?_append stamp session draft, drafts_behind_append stamp session draft⟩
  history now session limit store _ drafts hkept := by
    rw [draft_recentHistory, hkept, List.map_id', mapM_eq_ok_self fun _ _ => rfl]
  told now session store _ := by
    simp only [SessionStore.session?, card?, Except.map, Option.map_map]
    rfl

end MemoryStore

namespace Database

/-- The card of a session. -/
def card? (session : SessionId) (db : Database) : Option SessionCard :=
  (db.sessions.find? (·.id == session)).map (·.card)

section Cards

variable (session id time : String) (rows : List SessionRow)

/-- When a session was last used is not on its card. -/
private theorem card_find?_touched :
    ((touched id time rows).find? (·.id == session)).map (·.card) =
      (rows.find? (·.id == session)).map (·.card) := by
  have hid : (fun row : SessionRow => row.id == session) ∘
      (fun row => if row.id == id then { row with updatedAt := time } else row) =
        fun row => row.id == session := by
    funext row
    dsimp only [Function.comp]
    split <;> rfl
  have hcard : (fun row : SessionRow => row.card) ∘
      (fun row => if row.id == id then { row with updatedAt := time } else row) =
        fun row => row.card := by
    funext row
    dsimp only [Function.comp]
    split <;> rfl
  rw [touched, List.find?_map, hid, Option.map_map, hcard]

private theorem card_find?_withSession :
    ((withSession id time rows).find? (·.id == session)).map (·.card) =
      if session = id then
        some (((rows.find? (·.id == id)).map (·.card)).getD ⟨id, "", none⟩)
      else (rows.find? (·.id == session)).map (·.card) := by
  rw [withSession]
  split
  · next hany =>
    split
    · next hsame =>
      obtain ⟨row, hrow⟩ :=
        Option.isSome_iff_exists.mp (List.find?_isSome.mpr (List.any_eq_true.mp hany))
      rw [hsame, hrow]
      rfl
    · rfl
  · next hnone =>
    rw [List.find?_append]
    split
    · next hsame =>
      have habsent : rows.find? (·.id == id) = none := by
        simpa using hnone
      rw [hsame, habsent]
      simp [SessionRow.card]
    · next hother =>
      rw [List.find?_cons_of_neg (by simpa using Ne.symm hother), List.find?_nil, Option.or_none]

end Cards

variable {db : Database}

/-- A database whose statements on sessions and messages succeed. -/
private theorem all_of_appendFault? (h : db.appendFault? = none) :
    db.hasSessions = true ∧ db.hasMessages = true := by
  unfold appendFault? at h
  split at h
  · cases h
  split at h
  · cases h
  split at h
  · cases h
  next hsessions hmessages => exact ⟨by simpa using hsessions, by simpa using hmessages⟩

/-- A name without a page is new. -/
private theorem not_namesSession {name : String} (hcard : db.card? name = none)
    (hsayings : db.sayings name = []) : ¬ db.NamesSession name := by
  rintro (⟨row, hmem, hid⟩ | ⟨row, hmem, hsession⟩)
  · rw [card?, Option.map_eq_none_iff, List.find?_eq_none] at hcard
    exact hcard row hmem (by simpa using hid)
  · rw [sayings, List.map_eq_nil_iff, List.filter_eq_nil_iff] at hsayings
    exact hsayings row hmem (by simpa using hsession)

private theorem card?_opened (stamp : Stamp) (agentId : String) (title : Option String)
    (hcard : db.card? stamp.name = none) (session : SessionId) :
    card? session { db with sessions := db.sessions ++
        [⟨stamp.name, agentId, title, stamp.now.storedText, stamp.now.storedText⟩] } =
      if session = stamp.name then some ⟨stamp.name, agentId, title⟩ else db.card? session := by
  rw [card?, List.find?_append]
  split
  · next hsame =>
    rw [card?, Option.map_eq_none_iff] at hcard
    rw [hsame, hcard]
    simp [SessionRow.card]
  · next hother =>
    rw [List.find?_cons_of_neg (by simpa using Ne.symm hother), List.find?_nil, Option.or_none,
      card?]

/-- A draft is read back wherever it is placed. -/
private theorem mapM_readBack_placed (session : SessionId) (drafts : List Draft) :
    let readPlaced := fun message : SessionId × Draft =>
      message.2.readBack.map (message.1, ·)
    ((drafts.map (session, ·)).mapM readPlaced).map (·.map (·.2)) = drafts.mapM Draft.readBack := by
  intro readPlaced
  refine map_mapM_of_forall₂ ?_
  rw [List.forall₂_map_left_iff, List.forall₂_same]
  intro draft _
  change (draft.readBack.map (session, ·)).map (·.2) = draft.readBack
  cases draft.readBack <;> rfl

instance : PagedStore Database where
  Kept := MessageRow.Saying
  keep := Draft.saying
  readBack := Draft.readBack
  window limit := min limit Column.maxNumber
  Serves db := db.appendFault? = none
  card? := card?
  kept := sayings
  opened stamp agentId title db hserves hcard hsayings := by
    have hopen := openSession_eq stamp agentId title db (not_namesSession hcard hsayings)
    rw [if_pos (all_of_appendFault? hserves).1] at hopen
    exact ⟨_, hopen, hserves, card?_opened stamp agentId title hcard, fun session => rfl⟩
  appended stamp session draft db hserves hnew := by
    have happend := append_eq stamp session draft db hnew
    rw [hserves] at happend
    refine ⟨_, happend, hserves, fun other => ?_, fun other => ?_⟩
    · exact (card_find?_touched ..).trans (card_find?_withSession ..)
    · split
      · next hsame =>
        rw [hsame]
        exact sayings_withMessage db (draft.toMessage stamp.name session stamp.now)
      · next hother =>
        rw [List.append_nil]
        exact sayings_withMessage_other db hother
  history now session limit db hserves drafts hsayings := by
    have hplaced := placed_recentHistory_of_hasMessages (all_of_appendFault? hserves).2 now limit
      hsayings
    rw [← mapM_readBack_placed session, ← hplaced]
    cases SessionStore.recentHistory now session limit db with
    | error fault => rfl
    | ok messages =>
      simp only [Except.map, List.map_map]
      rfl
  told now session db hserves := by
    simp only [SessionStore.session?, if_pos (all_of_appendFault? hserves).1, card?, Except.map,
      Option.map_map]
    rfl

end Database

section Beside

variable {σ τ : Type} [SessionStore σ] [ImpartialStore σ] [PagedStore σ]

/-- A store with a log beside it keeps the pages of the store. -/
instance : PagedStore (σ × τ) where
  Kept := PagedStore.Kept σ
  keep := PagedStore.keep
  readBack := PagedStore.readBack σ
  window := PagedStore.window σ
  Serves pair := PagedStore.Serves pair.1
  card? session pair := PagedStore.card? session pair.1
  kept session pair := PagedStore.kept session pair.1
  opened stamp agentId title pair hserves hcard hkept := by
    obtain ⟨s', hopen, hpages⟩ := PagedStore.opened stamp agentId title hserves hcard hkept
    refine ⟨(s', pair.2), ?_, hpages⟩
    simp only [SessionStore.openSession, hopen]
  appended stamp session draft pair hserves hnew := by
    obtain ⟨s', happend, hpages⟩ := PagedStore.appended stamp session draft hserves hnew
    refine ⟨(s', pair.2), ?_, hpages⟩
    simp only [SessionStore.append, happend]
  history now session limit pair hserves drafts hkept :=
    PagedStore.history now session limit hserves hkept
  told now session pair hserves := PagedStore.told now session hserves

end Beside

end Colloquy
