import Colloquy.Proofs.Turn.Additions

/-!
# What a reply holds

A turn decides whether it appends a reply by all that it has streamed and by all records that count
as executed in it, while the reply itself holds the records of successes only. So there is always a
reason for a reply, but a turn that streamed nothing and whose calls all failed appends one that
holds nothing.
-/

namespace Colloquy

namespace Turn

variable {scope : TurnScope} {turn : Turn} {session : SessionId} {levels : List Level}
  {capped : Bool} {t : List TurnExchange}

/-- What a reply holds when a turn has gone through certain levels. -/
structure Holds (turn : Turn) (levels : List Level) (reply : Draft) : Prop where
  /-- The content is all that was streamed. -/
  content : reply.content = String.join (streamed levels)
  /-- The records are those of the successes, carried or executed. -/
  records : reply.toolRecords = (turn.executed levels).filter (·.success)
  /-- There is a reason for it: it has content, or some record was carried or executed. -/
  reason : reply.content ≠ "" ∨ turn.executed levels ≠ []

/-- A reply holds nothing if and only if all that was streamed is empty and all records are failures.
-/
theorem Holds.empty_iff {reply : Draft} (h : turn.Holds levels reply) :
    reply.content = "" ∧ reply.toolRecords = [] ↔
      (∀ piece ∈ streamed levels, piece = "") ∧
        ∀ record ∈ turn.executed levels, record.success = false := by
  rw [h.content, h.records, join_eq_empty_iff, List.filter_eq_nil_iff]
  simp only [Bool.not_eq_true]

/-- What is appended at the end of a turn holds what the turn persists. -/
theorem Persists.holds (h : Persists scope turn session levels capped t)
    {reply : SessionId × Draft} (hmem : reply ∈ replies t) : turn.Holds levels reply.2 := by
  obtain ⟨-, hcontent, hrecords, -⟩ := h.reply reply hmem
  refine ⟨hcontent, hrecords, ?_⟩
  have hsome := h.replied.mp (List.ne_nil_of_mem hmem)
  rcases hsome with ⟨piece, hpiece, hne⟩ | hexecuted
  · left
    rw [hcontent, Ne, join_eq_empty_iff]
    exact fun hall => hne (hall piece hpiece)
  · exact .inr hexecuted

/-- There is a reason for every reply, whoever listens and however the turn goes: it has content, or
some record was carried or executed. A reply that holds nothing comes of failures only. -/
theorem reply_run {σ : Type} (assignment : Assignment) (scope : TurnScope) (listener : Listener)
    (host : Program.Host Effect Effect.Answer σ) (s : σ) :
    ∀ reply ∈ replies (assignment.run scope listener host s).exchanges,
      ∃ turn session levels capped,
        assignment.Resolves (assignment.run scope listener host s).exchanges turn ∧
        Persists scope turn session levels capped
          (assignment.run scope listener host s).exchanges ∧
        turn.Holds levels reply.2 ∧
        (reply.2.content = "" ∧ reply.2.toolRecords = [] ↔
          (∀ piece ∈ streamed levels, piece = "") ∧
            ∀ record ∈ turn.executed levels, record.success = false) := by
  intro reply hmem
  obtain ⟨left, hreaches⟩ := assignment.reaches_run scope listener host s
  cases Assignment.contributes_of_reaches hreaches with
  | nothing hadditions =>
    rw [replies_eq_additions, hadditions] at hmem
    cases hmem
  | heard session id hadditions =>
    rw [replies_eq_additions, hadditions] at hmem
    simp [Draft.user] at hmem
  | replied session id id' turn levels capped hresolves hpersists hadditions =>
    have hholds := hpersists.holds hmem
    exact ⟨turn, session, levels, capped, hresolves, hpersists, hholds, hholds.empty_iff⟩

/-- A turn whose model says something and calls a tool that the agent has and one that it does not
have. -/
theorem reply_run_obliging :
    let clock : Tool := ⟨"1", "clock", "", .native, true, emptySchemaText⟩
    let prompt : Prompt := ⟨"p", "Be brief.", true⟩
    let turn : Turn := ⟨⟨"a", "A", [prompt], [clock], ⟨"m", 0, none⟩⟩, prompt, "Hello", none, []⟩
    let scope : TurnScope := ⟨.standard, fun _ => true, 3⟩
    let asking : ModelStream :=
      ⟨[.ok ⟨none, [⟨0, none, some "clock", none⟩, ⟨1, none, some "watch", none⟩], true⟩], false⟩
    let answering : ModelStream := ⟨[.ok ⟨some "Noon.", [], true⟩], false⟩
    let run := (Assignment.prepared turn).run scope .steady obliging [asking, answering]
    ∃ reply ∈ replies run.exchanges, ∃ turn session levels capped,
      (Assignment.prepared turn).Resolves run.exchanges turn ∧
      Persists scope turn session levels capped run.exchanges ∧ turn.Holds levels reply.2 ∧
      (reply.2.content = "" ∧ reply.2.toolRecords = [] ↔
        (∀ piece ∈ streamed levels, piece = "") ∧
          ∀ record ∈ turn.executed levels, record.success = false) := by
  intro clock prompt turn scope asking answering run
  have hone : (replies run.exchanges).length = 1 := by decide +kernel
  obtain ⟨reply, hreply⟩ := List.length_eq_one_iff.mp hone
  have hmem : reply ∈ replies run.exchanges := by simp [hreply]
  obtain ⟨turn', session, levels, capped, hresolves, hrest⟩ :=
    reply_run (.prepared turn) scope .steady obliging [asking, answering] reply hmem
  exact ⟨reply, hmem, turn', session, levels, capped, rfl, hrest⟩

/-- A turn whose model says nothing and calls a tool that the agent does not have: it appends a reply
that holds neither content nor records. -/
theorem exists_empty_reply :
    let prompt : Prompt := ⟨"p", "Be brief.", true⟩
    let turn : Turn := ⟨⟨"a", "A", [prompt], [], ⟨"m", 0, none⟩⟩, prompt, "Hello", some "s", []⟩
    let asking : ModelStream := ⟨[.ok ⟨none, [⟨0, none, some "watch", none⟩], true⟩], false⟩
    let silent : ModelStream := ⟨[.ok ⟨none, [], true⟩], false⟩
    let run := (Assignment.prepared turn).run ⟨.standard, fun _ => true, 3⟩ .steady obliging
      [asking, silent]
    run.outcome = some () ∧ ∃ reply ∈ replies run.exchanges,
      ¬ (reply.2.content ≠ "" ∨ reply.2.toolRecords ≠ []) := by
  intro prompt turn asking silent run
  have hreplies : (replies run.exchanges).map (fun reply =>
      (reply.2.content, reply.2.toolRecords.isEmpty)) = [("", true)] := by
    decide +kernel
  refine ⟨by decide +kernel, ?_⟩
  obtain ⟨reply, hone, hreply⟩ := List.map_eq_singleton_iff.mp hreplies
  obtain ⟨hcontent, hrecords⟩ := Prod.mk.inj hreply
  refine ⟨reply, by simp [hone], ?_⟩
  simpa [hcontent] using hrecords

end Turn

end Colloquy
