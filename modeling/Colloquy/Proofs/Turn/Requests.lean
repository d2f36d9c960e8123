import Colloquy.Proofs.Turn.Cancellation

/-!
# What the model is asked

Every request that a turn makes carries the binding and the tools of its agent, and its prompt is
composed behind the instructions of the turn. So it is for every listener, since whoever leaves only
cuts a turn short.
-/

namespace Colloquy

namespace Turn

/-- Every request among exchanges is one of the turn, for some history and content. -/
def AsksOnly (turn : Turn) (previewChars : Nat) (t : List TurnExchange) : Prop :=
  ∀ asked ∈ requested t, ∃ history content, asked = turn.request previewChars history content

variable {turn : Turn} {n : Nat} {t t' : List TurnExchange}

theorem asksOnly_of_eq_nil (h : requested t = []) : turn.AsksOnly n t := by
  intro asked hmem
  rw [h] at hmem
  cases hmem

theorem AsksOnly.append (h : turn.AsksOnly n t) (h' : turn.AsksOnly n t') :
    turn.AsksOnly n (t ++ t') := by
  intro asked hmem
  rw [requested_append] at hmem
  exact (List.mem_append.mp hmem).elim (h asked) (h' asked)

/-- A beginning of exchanges has only requests that they have. -/
theorem AsksOnly.of_isPrefix (h : turn.AsksOnly n t') (hpart : t <+: t') : turn.AsksOnly n t := by
  obtain ⟨rest, rfl⟩ := hpart
  intro asked hmem
  exact h asked (by rw [requested_append]; exact List.mem_append_left _ hmem)

variable {hangs : Effect → Prop} {scope : TurnScope} {session : SessionId}

private theorem asksOnly_opening (level : Level) :
    turn.AsksOnly scope.settings.effective.previewChars (level.opening scope turn session) := by
  intro asked hmem
  have hone : requested (level.opening scope turn session) =
      turn.request scope.settings.effective.previewChars level.history level.content ::
        requested (level.stream.texts.map TurnExchange.piece) := rfl
  rw [hone, requested_pieces, List.mem_singleton] at hmem
  exact ⟨level.history, level.content, hmem⟩

private theorem asksOnly_work {level : Level} (h : level.Complete scope turn session) :
    turn.AsksOnly n level.work :=
  asksOnly_of_eq_nil (requested_of_work (Batch.isWork_of_completed h.completed))

private theorem Halted.asksOnly {content : String} {fault : Option Fault}
    (h : Halted hangs scope turn session content t fault) :
    turn.AsksOnly scope.settings.effective.previewChars t := by
  cases h with
  | stalled level _ hpart => exact (asksOnly_opening level).of_isPrefix hpart
  | noHistory => exact asksOnly_of_eq_nil rfl
  | noModel history fault =>
    intro asked hmem
    exact ⟨history, content, List.mem_singleton.mp hmem⟩
  | brokenOff level => exact asksOnly_opening level

private theorem Loop.asksOnly {progress : Progress} {o : Option (Except Fault Progress)}
    (h : Loop hangs scope turn session progress t o) :
    turn.AsksOnly scope.settings.effective.previewChars t := by
  induction h with
  | unseen | capped => exact asksOnly_of_eq_nil rfl
  | halted _ hhalted => exact hhalted.asksOnly
  | working _ level _ hlevel hpart =>
    exact (asksOnly_opening level).append ((asksOnly_work hlevel).of_isPrefix hpart)
  | last _ level _ hlevel => exact (asksOnly_opening level).append (asksOnly_work hlevel)
  | level _ level _ hlevel _ _ ih =>
    exact ((asksOnly_opening level).append (asksOnly_work hlevel)).append ih

private theorem Entered.asksOnly (h : Entered turn t session) : turn.AsksOnly n t := by
  cases h <;> exact asksOnly_of_eq_nil rfl

private theorem Performed.asksOnly {o : Option (Except Fault Unit)}
    (h : turn.Performed hangs scope t o) :
    turn.AsksOnly scope.settings.effective.previewChars t := by
  cases h with
  | outside | noSession => exact asksOnly_of_eq_nil rfl
  | unheard henter => exact henter.asksOnly
  | refused henter fault => exact henter.asksOnly.append (asksOnly_of_eq_nil rfl)
  | halted henter id hloop => exact henter.asksOnly.append hloop.asksOnly
  | concluded henter id hloop hconclude =>
    refine henter.asksOnly.append (hloop.asksOnly.append (asksOnly_of_eq_nil ?_))
    cases hconclude <;> rfl

private theorem asksOnly_of_reported {o : Option Unit}
    (h : Heedful.Reported hangs (turn.Performed hangs scope) t o) :
    turn.AsksOnly scope.settings.effective.previewChars t := by
  cases h with
  | stalled hperform | ended hperform | untold hperform => exact hperform.asksOnly
  | told hperform => exact hperform.asksOnly.append (asksOnly_of_eq_nil rfl)

/-- Whoever listens to a turn, and whatever the parties answer, the turn makes only its own
requests. -/
theorem asksOnly_run {σ : Type} (scope : TurnScope) (turn : Turn) (listener : Listener)
    (host : Program.Host Effect Effect.Answer σ) (moment : Nat) (s : σ) :
    turn.AsksOnly scope.settings.effective.previewChars
      (listener.run host (turn.heedful scope) moment s).exchanges := by
  have hwatchful := (Assignment.prepared turn).watchful_heedful scope
  have hsteady : Listener.steady.run host (turn.heedful scope) moment s =
      (Assignment.prepared turn).run scope .steady host s := by
    rw [Assignment.run, Listener.run_steady, Listener.run_steady]
    rfl
  have hasks := asksOnly_of_reported ((Assignment.prepared turn).reported_run scope host s)
  rw [← hsteady] at hasks
  exact hasks.of_isPrefix (hwatchful.exchanges_run_le listener host moment s)

end Turn

end Colloquy
