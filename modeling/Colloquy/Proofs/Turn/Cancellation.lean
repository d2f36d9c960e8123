import Colloquy.Proofs.Turn.Assignment
import Colloquy.Proofs.Turn.Traces

/-!
# Listeners who leave

A program is watchful if it stops as soon as it finds that its listener is gone, and looks for the
listener right before every effect but those that handle calls. What a watchful program does for a
listener who leaves is the beginning of what it does for one who stays, and behind the moment of
leaving at most some calls are still handled. Turns and requests are watchful.
-/

namespace Colloquy

variable {α β σ : Type}

namespace HeedfulProgram

/-- A program is watchful if it ends in a way that `quits` whenever the listener is gone, and has
looked for the listener before every effect but those that handle calls. It may have looked already,
and then its first effect needs no other look. -/
def Watchful (quits : α → Prop) : (looked : Bool) → HeedfulProgram α → Prop
  | _, .done _ => True
  | looked, .ask (.perform effect) next =>
    (looked = true ∨ effect.isWork = true) ∧ ∀ answer, Watchful quits false (next answer)
  | _, .ask .look next =>
    (∃ a, quits a ∧ next true = .done a) ∧ Watchful quits true (next false)
  | looked, .ask .glance next =>
    (∃ a, quits a ∧ next true = .done a) ∧ Watchful quits looked (next false)

namespace Watchful

variable {quits : α → Prop} {quits' : β → Prop} {looked : Bool} {p : HeedfulProgram α}

/-- What is watchful without a look is so behind one. -/
theorem of_false (h : p.Watchful quits false) : p.Watchful quits looked := by
  induction p with
  | done a => trivial
  | ask inquiry next ih =>
    cases inquiry with
    | perform effect => exact ⟨.inr (h.1.resolve_left Bool.false_ne_true), h.2⟩
    | look => exact h
    | glance => exact ⟨h.1, ih false h.2⟩

/-- Watchful programs one behind the other are watchful, if the second does nothing when the first
quits. -/
theorem bind (h : p.Watchful quits looked) {f : α → HeedfulProgram β}
    (hf : ∀ a, (f a).Watchful quits' false)
    (hquits : ∀ a, quits a → ∃ b, quits' b ∧ f a = .done b) :
    (p >>= f).Watchful quits' looked := by
  induction p generalizing looked with
  | done a => exact (hf a).of_false
  | ask inquiry next ih =>
    cases inquiry with
    | perform effect => exact ⟨h.1, fun answer => ih answer (h.2 answer)⟩
    | look | glance =>
      obtain ⟨⟨a, ha, hnext⟩, hrest⟩ := h
      obtain ⟨b, hb, hend⟩ := hquits a ha
      have hdone : next true >>= f = .done b := hnext ▸ hend
      exact ⟨⟨b, hb, hdone⟩, ih false hrest⟩

variable (listener : Listener) (host : Program.Host Effect Effect.Answer σ)

/-- For a listener who leaves, a watchful program does the beginning of what it does for one who
stays. -/
theorem exchanges_run_le (h : p.Watchful quits looked) (moment : Nat) (s : σ) :
    (listener.run host p moment s).exchanges <+:
      (Listener.steady.run host p moment s).exchanges := by
  induction p generalizing looked moment s with
  | done a => exact List.prefix_rfl
  | ask inquiry next ih =>
    cases inquiry with
    | perform effect =>
      rw [Listener.run, Listener.run]
      cases host effect s with
      | none => exact List.prefix_rfl
      | some answer =>
        exact (List.prefix_cons_inj _).mpr (ih answer.1 (h.2 answer.1) (moment + 1) answer.2)
    | look =>
      obtain ⟨⟨a, -, hnext⟩, hrest⟩ := h
      rw [Listener.run]
      cases listener.isGone moment with
      | true =>
        rw [hnext]
        exact List.nil_prefix
      | false => exact ih false hrest moment s
    | glance =>
      obtain ⟨⟨a, -, hnext⟩, hrest⟩ := h
      rw [Listener.run]
      cases listener.isGone moment && listener.caught moment with
      | true =>
        rw [hnext]
        exact List.nil_prefix
      | false => exact ih false hrest moment s

/-- Whatever a watchful program does beyond the handling of calls starts while the listener is
there. -/
theorem not_isGone_of_getElem? (h : p.Watchful quits looked) {moment : Nat}
    (hlooked : looked = true → listener.isGone moment = false) (s : σ) {k : Nat}
    {exchange : TurnExchange} (hk : (listener.run host p moment s).exchanges[k]? = some exchange)
    (hwork : exchange.1.isWork = false) : listener.isGone (moment + k) = false := by
  induction p generalizing looked moment s k with
  | done a => cases hk
  | ask inquiry next ih =>
    cases inquiry with
    | perform effect =>
      rw [Listener.run] at hk
      cases hanswer : host effect s with
      | none =>
        rw [hanswer] at hk
        cases hk
      | some answer =>
        rw [hanswer] at hk
        cases k with
        | zero =>
          cases hk
          exact hlooked (h.1.resolve_right (by simp [hwork]))
        | succ k =>
          rw [Nat.add_comm k 1, ← Nat.add_assoc]
          exact ih answer.1 (h.2 answer.1) (fun hfalse => by cases hfalse) answer.2 hk
    | look =>
      obtain ⟨⟨a, -, hnext⟩, hrest⟩ := h
      rw [Listener.run] at hk
      cases hgone : listener.isGone moment with
      | true =>
        rw [hgone, hnext] at hk
        cases hk
      | false =>
        rw [hgone] at hk
        exact ih false hrest (fun _ => hgone) s hk
    | glance =>
      obtain ⟨⟨a, -, hnext⟩, hrest⟩ := h
      rw [Listener.run] at hk
      cases hgone : listener.isGone moment && listener.caught moment with
      | true =>
        rw [hgone, hnext] at hk
        cases hk
      | false =>
        rw [hgone] at hk
        exact ih false hrest hlooked s hk

end Watchful

end HeedfulProgram

namespace Heedful

/-- A heedful program is watchful if it is interrupted whenever the listener is gone. -/
def Watchful (h : Heedful α) : Prop :=
  h.run.Watchful (· = .error .gone) false

theorem watchful_pure (a : α) : Watchful (pure a) := trivial

theorem watchful_throw (i : Interruption) : Watchful (throw i : Heedful α) := trivial

theorem Watchful.bind {h : Heedful α} {f : α → Heedful β} (hh : h.Watchful)
    (hf : ∀ a, (f a).Watchful) : (h >>= f).Watchful := by
  rw [Watchful, ExceptT.run_bind]
  refine HeedfulProgram.Watchful.bind hh ?_ ?_
  · rintro (i | a)
    · trivial
    · exact hf a
  · rintro _ rfl
    exact ⟨_, rfl, rfl⟩

/-- Whether a program does nothing but handle calls. -/
def OnlyWorks : TurnProgram α → Prop
  | .done _ => True
  | .ask effect next => effect.isWork = true ∧ ∀ answer, OnlyWorks (next answer)

theorem OnlyWorks.bind {p : TurnProgram α} {f : α → TurnProgram β} (h : OnlyWorks p)
    (hf : ∀ a, OnlyWorks (f a)) : OnlyWorks (p >>= f) := by
  induction p with
  | done a => exact hf a
  | ask effect next ih => exact ⟨h.1, fun answer => ih answer (h.2 answer)⟩

/-- Whether a program does nothing but handle calls behind its first effect. -/
def Prompt : TurnProgram α → Prop
  | .done _ => True
  | .ask _ next => ∀ answer, OnlyWorks (next answer)

private theorem watchful_watch {p : TurnProgram α} (h : OnlyWorks p) : (watch p).Watchful := by
  induction p with
  | done a => trivial
  | ask effect next ih =>
    exact ⟨⟨_, rfl, rfl⟩, .inr h.1, fun answer => ih answer (h.2 answer)⟩

/-- Behind a guard, a program may do one effect at once. -/
theorem watchful_guard {p : TurnProgram α} (h : Prompt p) : (guard p).Watchful := by
  refine ⟨⟨_, rfl, rfl⟩, ?_⟩
  cases p with
  | done a => trivial
  | ask effect next => exact ⟨⟨_, rfl, rfl⟩, .inl rfl, fun answer => watchful_watch (h answer)⟩

theorem OnlyWorks.prompt {p : TurnProgram α} (h : OnlyWorks p) : Prompt p := by
  cases p with
  | done a => trivial
  | ask effect next => exact h.2

theorem watchful_ofAttempt {attempt : Attempt α} (h : Prompt attempt.run) :
    (ofAttempt attempt).Watchful := by
  refine (watchful_guard h).bind ?_
  rintro (fault | a)
  · exact watchful_throw _
  · exact watchful_pure a

theorem watchful_await : await.Watchful :=
  watchful_guard trivial

theorem watchful_say (piece : String) : (say piece).Watchful :=
  watchful_guard fun _ => trivial

theorem watchful_waitForever : (waitForever : Heedful α).Watchful :=
  watchful_guard fun answer => answer.elim

/-- A fault is delivered only to a listener who is there. -/
theorem watchful_reported {h : Heedful Unit} (hh : h.Watchful) :
    h.reported.Watchful (fun _ => True) false := by
  refine HeedfulProgram.Watchful.bind hh ?_ ?_
  · rintro ((_ | fault) | _)
    · trivial
    · have hguard : (guard (Effect.ask (.deliver (.error fault)))).Watchful :=
        watchful_guard fun _ => trivial
      exact HeedfulProgram.Watchful.bind hguard (fun _ => trivial) fun _ _ => ⟨(), trivial, rfl⟩
    · trivial
  · rintro _ rfl
    exact ⟨(), trivial, rfl⟩

end Heedful

namespace Batch

variable {serves : ToolKind → Bool} {agent : Agent} {session : SessionId}

private theorem onlyWorks_call (c : ToolCall) :
    Heedful.OnlyWorks (call serves agent session c) := by
  rw [call]
  cases prepare serves agent c with
  | error fault => exact ⟨rfl, fun _ => trivial⟩
  | ok prepared => exact ⟨rfl, fun _ => ⟨rfl, fun _ => ⟨rfl, fun _ => trivial⟩⟩⟩

/-- A batch does nothing but handle calls. -/
theorem onlyWorks_calls (cs : List ToolCall) :
    Heedful.OnlyWorks (calls serves agent session cs) := by
  induction cs with
  | nil => trivial
  | cons c cs ih => exact (onlyWorks_call c).bind fun _ => ih.bind fun _ => trivial

end Batch

namespace Turn

open Heedful

private theorem watchful_forwardAll (pieces : List String) : (forwardAll pieces).Watchful := by
  induction pieces with
  | nil => exact watchful_pure ()
  | cons piece pieces ih => exact watchful_await.bind fun _ => (watchful_say piece).bind fun _ => ih

private theorem watchful_forward (text : String) (stream : ModelStream) :
    (forward text (.ofStream stream)).Watchful := by
  rw [forward_ofStream]
  refine (watchful_forwardAll stream.texts).bind fun _ => ?_
  cases stream.ending with
  | closed => exact watchful_await.bind fun _ => watchful_pure _
  | fault fault => exact watchful_await.bind fun _ => watchful_throw _
  | never => exact watchful_waitForever

variable {scope : TurnScope} {turn : Turn} {session : SessionId}

private theorem watchful_answer (settings : TurnSettings) (content text : String) :
    (answer settings turn session content text).Watchful := by
  refine Watchful.bind (watchful_ofAttempt ?_) fun history => ?_
  · exact fun _ => trivial
  refine Watchful.bind (watchful_ofAttempt ?_) fun stream => ?_
  · exact fun _ => trivial
  · exact watchful_forward text stream

private theorem watchful_levels (horizon : Nat) (progress : Progress) :
    (levels scope turn session horizon progress).Watchful := by
  induction horizon generalizing progress with
  | zero => exact watchful_waitForever
  | succ horizon ih =>
    rw [levels]
    split
    · exact (watchful_say _).bind fun _ => watchful_pure _
    · refine (watchful_answer _ _ _).bind ?_
      rintro ⟨text, calls⟩
      dsimp only
      split
      · exact watchful_pure _
      · exact (watchful_guard (Batch.onlyWorks_calls _).prompt).bind fun batch => ih _

/-- A turn is watchful. -/
theorem watchful_perform (scope : TurnScope) (turn : Turn) : (turn.perform scope).Watchful := by
  rw [perform]
  refine Watchful.bind ?_ fun session => ?_
  · rw [enter]
    split
    · exact watchful_pure _
    · exact watchful_ofAttempt fun _ => trivial
  refine Watchful.bind (watchful_ofAttempt ?_) fun id => ?_
  · exact fun _ => trivial
  refine (watchful_levels _ _).bind fun progress => ?_
  rw [conclude]
  split
  · refine Watchful.bind (watchful_ofAttempt ?_) fun _ => watchful_pure _
    exact fun _ => trivial
  · exact watchful_pure _

end Turn

/-- A request is watchful. -/
theorem TurnRequest.watchful_perform (scope : TurnScope) (request : TurnRequest) :
    (request.perform scope).Watchful := by
  rw [perform]
  refine Heedful.Watchful.bind ?_ fun resolved => ?_
  · rw [resolve]
    split
    · exact Heedful.watchful_pure _
    · refine Heedful.Watchful.bind (Heedful.watchful_ofAttempt ?_) fun _ => Heedful.watchful_pure _
      exact fun _ => trivial
  · split
    · exact Turn.watchful_perform scope _
    · exact Heedful.watchful_say _

namespace Assignment

theorem watchful_heedful (assignment : Assignment) (scope : TurnScope) :
    (assignment.heedful scope).Watchful (fun _ => True) false := by
  cases assignment with
  | prepared turn => exact Heedful.watchful_reported (turn.watchful_perform scope)
  | requested request => exact Heedful.watchful_reported (request.watchful_perform scope)

/-- For a listener who leaves, an assignment does the beginning of what it does for one who stays.
It starts nothing behind the moment of leaving, and so appends no message, except that it may go on
with calls. -/
theorem run_leaving (assignment : Assignment) (scope : TurnScope) (listener : Listener)
    (host : Program.Host Effect Effect.Answer σ) (s : σ) :
    let left := (assignment.run scope listener host s).exchanges
    left <+: (assignment.run scope .steady host s).exchanges ∧
      (∀ (k : Nat) exchange, left[k]? = some exchange →
        exchange.1.isWork = false → listener.isGone k = false) ∧
      ∀ (k : Nat) session draft answer, left[k]? = some ⟨.append session draft, answer⟩ →
        listener.isGone k = false := by
  have hwatchful := assignment.watchful_heedful scope
  have hthere (k : Nat) (exchange : TurnExchange)
      (hk : (assignment.run scope listener host s).exchanges[k]? = some exchange)
      (hwork : exchange.1.isWork = false) : listener.isGone k = false := by
    have hlooked : false = true → listener.isGone 0 = false := fun hfalse => by cases hfalse
    have hgone := hwatchful.not_isGone_of_getElem? listener host hlooked s hk hwork
    rwa [Nat.zero_add] at hgone
  refine ⟨hwatchful.exchanges_run_le listener host 0 s, hthere, ?_⟩
  intro k session draft answer hk
  exact hthere k _ hk rfl

end Assignment

end Colloquy
