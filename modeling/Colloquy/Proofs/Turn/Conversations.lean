import Colloquy.Proofs.Turn.Taking
import Mathlib.Data.List.Chain

/-!
# Conversations over many turns

Turns come one after another, each at its own host, for its own listener and in whatever session,
and each ends as it may: in good order, turned away, with a fault, left by its listener or without
an end. What is in a session then is one block for each turn that got so far as to say something
there: the message of the person, and behind it at most one reply. From the shape of the blocks
follows that of the conversation.
-/

namespace Colloquy

variable {σ : Type}

/-- A record of a success holds a result and no fault. -/
def ExecutionRecord.Succeeded (record : ExecutionRecord) : Prop :=
  record.success = true ∧ record.result.isSome = true ∧ record.error = none

/-- What a turn says in a session: the message of the person and perhaps a reply. -/
inductive IsBlock (content : String) : List Draft → Prop
  | heard : IsBlock content [.user content]
  | replied (text : String) {records : List ExecutionRecord}
    (hrecords : ∀ record ∈ records, record.Succeeded) :
    IsBlock content [.user content, .assistant text records]

/-- The shape of what is said in a session. -/
structure IsConversation (drafts : List Draft) : Prop where
  /-- The person speaks first. -/
  opened : ∀ first ∈ drafts.head?, first.role = .user
  /-- No two replies stand side by side. -/
  alternating : drafts.IsChain fun first second =>
    ¬ (first.role = .assistant ∧ second.role = .assistant)
  /-- Only the person and the model speak. -/
  voices : ∀ draft ∈ drafts, draft.role = .user ∨ draft.role = .assistant
  /-- What the person says has no records. -/
  plain : ∀ draft ∈ drafts, draft.role = .user → draft.toolRecords = []
  /-- What the model says has records of successes only. -/
  succeeded : ∀ draft ∈ drafts, draft.role = .assistant →
    ∀ record ∈ draft.toolRecords, record.Succeeded
  /-- There are as many tokens as characters, up to the greatest word of 32 bits. -/
  counted : ∀ draft ∈ drafts,
    draft.tokenCount.map UInt32.toNat = some (min draft.content.length (Word.count 32 - 1))

theorem isConversation_nil : IsConversation [] :=
  ⟨by simp, .nil, by simp, by simp, by simp, by simp⟩

private theorem isConversation_of_block {content : String} {block : List Draft}
    (h : IsBlock content block) : IsConversation block := by
  cases h with
  | heard =>
    refine ⟨?_, .singleton _, ?_, ?_, ?_, ?_⟩ <;> simp [Draft.user, toNat_tokenEstimate]
  | replied text hrecords =>
    refine ⟨?_, .cons_cons ?_ (.singleton _), ?_, ?_, ?_, ?_⟩ <;>
      simp [Draft.user, Draft.assistant, toNat_tokenEstimate]
    exact hrecords

/-- Behind a conversation, another one may follow, since it is opened by the person. -/
private theorem IsConversation.append {drafts drafts' : List Draft} (h : IsConversation drafts)
    (h' : IsConversation drafts') : IsConversation (drafts ++ drafts') where
  opened first hfirst := by
    rw [List.head?_append] at hfirst
    cases hhead : drafts.head? with
    | none => exact h'.opened first (by simpa [hhead] using hfirst)
    | some head => exact h.opened first (by simpa [hhead] using hfirst)
  alternating := by
    refine List.isChain_append.mpr ⟨h.alternating, h'.alternating, ?_⟩
    intro last _ first hfirst hboth
    rw [h'.opened first hfirst] at hboth
    cases hboth.2
  voices draft hmem := (List.mem_append.mp hmem).elim (h.voices draft) (h'.voices draft)
  plain draft hmem := (List.mem_append.mp hmem).elim (h.plain draft) (h'.plain draft)
  succeeded draft hmem := (List.mem_append.mp hmem).elim (h.succeeded draft) (h'.succeeded draft)
  counted draft hmem := (List.mem_append.mp hmem).elim (h.counted draft) (h'.counted draft)

/-- The messages that a session takes in exchanges, without what the store gives to them. -/
def saidIn (session : SessionId) (t : List TurnExchange) : List Draft :=
  ((additions t).filter fun addition => addition.session = session).map (·.draft)

section Records

variable {serves : ToolKind → Bool} {agent : Agent} {session : SessionId}

/-- The records of a batch are made by the outcomes of its calls. -/
private theorem Batch.Completed.consistent {calls : List ToolCall} {t : List TurnExchange}
    {records : List ExecutionRecord} (h : Completed serves agent session calls t records) :
    ∀ record ∈ records, record.Consistent := by
  induction h with
  | nil => simp
  | cons hfirst _ ih =>
    refine List.forall_mem_cons.mpr ⟨?_, ih⟩
    cases hfirst <;> exact ExecutionRecord.consistent_ofOutcome ..

private theorem Turn.consistent_executed {scope : TurnScope} {turn : Turn} {levels : List Level}
    (hcarried : ∀ record ∈ turn.carried, record.Consistent)
    (hall : ∀ level ∈ levels, level.Complete scope turn session) :
    ∀ record ∈ turn.executed levels, record.Consistent := by
  intro record hmem
  obtain hmem | hmem := List.mem_append.mp hmem
  · exact hcarried record hmem
  · obtain ⟨level, hlevel, hrecord⟩ := List.mem_flatMap.mp hmem
    exact (hall level hlevel).completed.consistent record hrecord

private theorem ExecutionRecord.Consistent.succeeded {record : ExecutionRecord}
    (h : record.Consistent) (hsuccess : record.success = true) : record.Succeeded := by
  obtain ⟨hresult, herror⟩ := h
  rw [hsuccess] at hresult herror
  exact ⟨hsuccess, hresult.symm, Option.isNone_iff_eq_none.mp herror.symm⟩

end Records

/-- What an assignment says in a session is a block, if it says something there. -/
private theorem Assignment.Contributes.block {assignment : Assignment} {scope : TurnScope}
    {t : List TurnExchange} (h : assignment.Contributes scope t)
    (hcarried : ∀ record ∈ assignment.carried, record.Consistent) (session : SessionId) :
    saidIn session t = [] ∨ IsBlock assignment.content (saidIn session t) := by
  cases h with
  | nothing hadditions => exact .inl (by rw [saidIn, hadditions]; rfl)
  | heard taker id hadditions =>
    rw [saidIn, hadditions]
    by_cases hsession : taker = session
    · exact .inr (by simpa [hsession] using IsBlock.heard)
    · exact .inl (by simp [hsession])
  | replied taker id id' turn levels capped hresolves hpersists hadditions =>
    rw [saidIn, hadditions]
    by_cases hsession : taker = session
    · have hconsistent := Turn.consistent_executed (hresolves.given.2 ▸ hcarried) hpersists.complete
      have hrecords : ∀ record ∈ (turn.executed levels).filter (·.success), record.Succeeded := by
        intro record hmem
        obtain ⟨hmem, hsuccess⟩ := List.mem_filter.mp hmem
        exact (hconsistent record hmem).succeeded hsuccess
      exact .inr (by simpa [hsession] using IsBlock.replied _ hrecords)
    · exact .inl (by simp [hsession])

/-- A turn as it comes about. -/
structure Occasion (σ : Type) where
  /-- What is run. -/
  assignment : Assignment
  /-- What it knows of its surroundings. -/
  scope : TurnScope
  /-- For whom it is run. -/
  listener : Listener
  /-- Who answers its effects. -/
  host : Program.Host Effect Effect.Answer σ

namespace Occasion

/-- What comes of a turn. -/
def run (occasion : Occasion σ) (s : σ) : Program.Run Effect.Answer Unit σ :=
  occasion.assignment.run occasion.scope occasion.listener occasion.host s

/-- What comes of turns one after another, and the last state. -/
def runAll : List (Occasion σ) → σ → List (Program.Run Effect.Answer Unit σ) × σ
  | [], s => ([], s)
  | first :: rest, s =>
    let behind := runAll rest (first.run s).state
    (first.run s :: behind.1, behind.2)

/-- Turns one after another add to a session what each of them says there. -/
private theorem drafts_runAll (store : σ → MemoryStore) {occasions : List (Occasion σ)}
    (hkeeps : ∀ occasion ∈ occasions, KeepsStore occasion.host store) (s : σ)
    (session : SessionId) :
    (store (runAll occasions s).2).drafts session =
      (store s).drafts session ++
        (runAll occasions s).1.flatMap fun run => saidIn session run.exchanges := by
  induction occasions generalizing s with
  | nil => exact (List.append_nil _).symm
  | cons first rest ih =>
    obtain ⟨hfirst, hrest⟩ := List.forall_mem_cons.mp hkeeps
    have hleads := Listener.leads_run first.listener first.host
      (first.assignment.heedful first.scope) 0 s
    obtain ⟨added, hbehind, hadded⟩ := (hfirst.takesAll hleads).messages_eq session
    have hsaid : added.map Message.draft = saidIn session (first.run s).exchanges := by
      rw [saidIn, run, Assignment.run, ← hadded, List.map_map]
      rfl
    have hdrafts : (store (first.run s).state).drafts session =
        (store s).drafts session ++ saidIn session (first.run s).exchanges := by
      rw [MemoryStore.drafts_eq_messages, MemoryStore.drafts_eq_messages, ← hsaid,
        ← List.map_append, ← hbehind]
      rfl
    rw [runAll, List.flatMap_cons, ← List.append_assoc, ← hdrafts]
    exact ih hrest (first.run s).state

/-- What is said in a session in turns one after another: a block for each turn that says something
there, in the order of the turns, and a conversation in all. -/
structure Converse (occasions : List (Occasion σ))
    (runs : List (Program.Run Effect.Answer Unit σ)) (session : SessionId) (drafts : List Draft) :
    Prop where
  /-- Turn by turn, it is what the turn says in the session. -/
  said : drafts = runs.flatMap fun run => saidIn session run.exchanges
  /-- A turn says nothing there, or a block. -/
  blocks : List.Forall₂ (fun occasion run => saidIn session run.exchanges = [] ∨
    IsBlock occasion.assignment.content (saidIn session run.exchanges)) occasions runs
  /-- The blocks make a conversation. -/
  shape : IsConversation drafts

private theorem forall₂_blocks {occasions : List (Occasion σ)}
    (hcarried : ∀ occasion ∈ occasions, ∀ record ∈ occasion.assignment.carried, record.Consistent)
    (s : σ) (session : SessionId) :
    List.Forall₂ (fun occasion run => saidIn session run.exchanges = [] ∨
        IsBlock occasion.assignment.content (saidIn session run.exchanges)) occasions
      (runAll occasions s).1 := by
  induction occasions generalizing s with
  | nil => exact .nil
  | cons first rest ih =>
    obtain ⟨hfirst, hrest⟩ := List.forall_mem_cons.mp hcarried
    obtain ⟨left, hreaches⟩ :=
      first.assignment.reaches_run first.scope first.listener first.host s
    refine .cons ?_ (ih hrest (first.run s).state)
    exact (Assignment.contributes_of_reaches hreaches).block hfirst session

private theorem isConversation_flatMap {occasions : List (Occasion σ)}
    {runs : List (Program.Run Effect.Answer Unit σ)} {session : SessionId}
    (h : List.Forall₂ (fun occasion run => saidIn session run.exchanges = [] ∨
      IsBlock occasion.assignment.content (saidIn session run.exchanges)) occasions runs) :
    IsConversation (runs.flatMap fun run => saidIn session run.exchanges) := by
  induction h with
  | nil => exact isConversation_nil
  | cons hfirst _ ih =>
    rw [List.flatMap_cons]
    obtain hnone | hblock := hfirst
    · rwa [hnone]
    · exact (isConversation_of_block hblock).append ih

/-- Whatever turns come one after another, and however each of them ends, what is in a session of a
store that was empty before them is a conversation of blocks, one for each turn that says something
there. -/
theorem converse_runAll (store : σ → MemoryStore) (occasions : List (Occasion σ))
    (hkeeps : ∀ occasion ∈ occasions, KeepsStore occasion.host store)
    (hcarried : ∀ occasion ∈ occasions, ∀ record ∈ occasion.assignment.carried, record.Consistent)
    (s : σ) (hempty : store s = .empty) (session : SessionId) :
    Converse occasions (runAll occasions s).1 session
      ((store (runAll occasions s).2).drafts session) := by
  have hblocks := forall₂_blocks hcarried s session
  have hdrafts := drafts_runAll store hkeeps s session
  have hnothing : (store s).drafts session = [] := by
    rw [hempty]
    rfl
  rw [hnothing, List.nil_append] at hdrafts
  refine ⟨hdrafts, hblocks, ?_⟩
  rw [hdrafts]
  exact isConversation_flatMap hblocks

/-- A turn that opens a session and carries a record, a request that goes on there and is left by
its listener, and one that is turned away. -/
theorem converse_runAll_visits :
    let prompt : Prompt := ⟨"p", "Be brief.", true⟩
    let agent : Agent := ⟨"a", "A", [prompt], [], ⟨"m", 0, none⟩⟩
    let earlier : ExecutionRecord :=
      .ofOutcome ⟨"c", none, "clock", "n", "a"⟩ [] (.ok .null) 3 ⟨0, 0⟩
    let scope : TurnScope := ⟨.standard, fun _ => true, 3⟩
    let leaving : Listener := ⟨some 5, fun _ => true⟩
    let occasions : List (Occasion (Parties (MemoryStore × MemoryLog))) :=
      [⟨.prepared ⟨agent, prompt, "Hello", none, [earlier]⟩, scope, .steady, Parties.memoryHost⟩,
        ⟨.requested ⟨some "a", "Again", some "n"⟩, scope, leaving, Parties.memoryHost⟩,
        ⟨.requested ⟨some "a", " ", some "n"⟩, scope, .steady, Parties.memoryHost⟩]
    let parties : Parties (MemoryStore × MemoryLog) :=
      ⟨.ofList [agent], (.empty, .empty),
        .ofResponses [[.ofText "It is noon.", .last], [.ofText "Still noon.", .last]], .empty⟩
    Converse occasions (runAll occasions parties).1 "n"
      ((runAll occasions parties).2.memory.drafts "n") := by
  intro prompt agent earlier scope leaving occasions parties
  have hkeeps : ∀ occasion ∈ occasions, KeepsStore occasion.host Parties.memory := by
    simp [occasions, Parties.keepsStore_memoryHost]
  have hcarried : ∀ occasion ∈ occasions, ∀ record ∈ occasion.assignment.carried,
      record.Consistent := by
    simp [occasions, Assignment.carried, earlier, ExecutionRecord.consistent_ofOutcome]
  exact converse_runAll Parties.memory occasions hkeeps hcarried parties rfl "n"

end Occasion

end Colloquy
