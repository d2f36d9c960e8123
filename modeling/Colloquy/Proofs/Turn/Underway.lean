import Colloquy.Proofs.Turn.Cancellation

/-!
# Programs under way

A heedful program may be looked at between any two of its effects, whoever answers them and whatever
its looks find. A watchful program has gone through nothing by then that it would not go through for
a listener who stays, so that the rules for runs hold for a run that is not over as well.
-/

namespace Colloquy

variable {α σ : Type}

/-- Nothing at all may still have happened. -/
theorem Program.exists_course_nil {E : Type} {Answer : E → Type} (p : Program E Answer α) :
    ∃ o, p.Course (fun _ => True) [] o := by
  cases p with
  | done a => exact ⟨_, .done a⟩
  | ask question next => exact ⟨_, .unanswered trivial next⟩

namespace HeedfulProgram

/-- A heedful program has had certain exchanges, and this is left of it. -/
inductive Reaches (p : HeedfulProgram α) : List TurnExchange → HeedfulProgram α → Prop
  /-- Nothing has happened. -/
  | start : Reaches p [] p
  /-- It has looked for its listener. -/
  | looked {t : List TurnExchange} {next : Bool → HeedfulProgram α}
    (h : Reaches p t (.ask .look next)) (gone : Bool) : Reaches p t (next gone)
  /-- It has glanced at its listener. -/
  | glanced {t : List TurnExchange} {next : Bool → HeedfulProgram α}
    (h : Reaches p t (.ask .glance next)) (gone : Bool) : Reaches p t (next gone)
  /-- An effect was answered. -/
  | answered {t : List TurnExchange} {effect : Effect} {next : effect.Answer → HeedfulProgram α}
    (h : Reaches p t (.ask (.perform effect) next)) (answer : effect.Answer) :
    Reaches p (t ++ [⟨effect, answer⟩]) (next answer)

namespace Reaches

variable {p q : HeedfulProgram α} {t : List TurnExchange}

/-- What is left of a watchful program goes on for a listener who stays, whatever may hang, or it has
quit. -/
private theorem onCourse {quits : α → Prop} (h : p.Reaches t q) (hp : p.Watchful quits false) :
    (∃ looked, q.Watchful quits looked) ∧
        (∀ hangs rest o, q.attended.Course hangs rest o →
          p.attended.Course hangs (t ++ rest) o) ∨
      (∃ a, q = .done a) ∧ ∃ o, p.attended.Course (fun _ => True) t o := by
  -- A program that finds its listener gone is over, and stays what it is.
  have hlook {t : List TurnExchange} {next : Bool → HeedfulProgram α} {looked : Bool}
      (hquits : ∃ a, quits a ∧ next true = .done a) (hnext : (next false).Watchful quits looked)
      (hgo : ∀ hangs rest o, (next false).attended.Course hangs rest o →
        p.attended.Course hangs (t ++ rest) o) (gone : Bool) :
      (∃ looked, (next gone).Watchful quits looked) ∧
          (∀ hangs rest o, (next gone).attended.Course hangs rest o →
            p.attended.Course hangs (t ++ rest) o) ∨
        (∃ a, next gone = .done a) ∧ ∃ o, p.attended.Course (fun _ => True) t o := by
    cases gone with
    | false => exact .inl ⟨⟨looked, hnext⟩, hgo⟩
    | true =>
      obtain ⟨a, -, ha⟩ := hquits
      obtain ⟨o, ho⟩ := (next false).attended.exists_course_nil
      have hcourse := hgo _ [] o ho
      rw [List.append_nil] at hcourse
      exact .inr ⟨⟨a, ha⟩, o, hcourse⟩
  induction h with
  | start => exact .inl ⟨⟨false, hp⟩, fun hangs rest o hrest => hrest⟩
  | looked _ gone ih | glanced _ gone ih =>
    obtain ⟨⟨_, hquits, hnext⟩, hgo⟩ | ⟨⟨a, ha⟩, -⟩ := ih
    · exact hlook hquits hnext hgo gone
    · cases ha
  | answered _ answer ih =>
    obtain ⟨⟨_, -, hnext⟩, hgo⟩ | ⟨⟨a, ha⟩, -⟩ := ih
    · refine .inl ⟨⟨false, hnext answer⟩, fun hangs rest o hrest => ?_⟩
      rw [List.append_assoc]
      exact hgo hangs _ o (.answered answer hrest)
    · cases ha

/-- The exchanges of a watchful program are a course of it for a listener who stays, who need not
see its end. -/
theorem course {quits : α → Prop} (h : p.Reaches t q) (hp : p.Watchful quits false) :
    ∃ o, p.attended.Course (fun _ => True) t o := by
  obtain ⟨-, hgo⟩ | ⟨-, hcourse⟩ := h.onCourse hp
  · obtain ⟨o, ho⟩ := q.attended.exists_course_nil
    have hcourse := hgo _ [] o ho
    rw [List.append_nil] at hcourse
    exact ⟨o, hcourse⟩
  · exact hcourse

/-- A watchful program that asks for an effect comes to a stand there for a listener who stays, if
the effect hangs. -/
theorem course_of_hangs {quits : α → Prop} {effect : Effect}
    {next : effect.Answer → HeedfulProgram α} (h : p.Reaches t (.ask (.perform effect) next))
    (hp : p.Watchful quits false) {hangs : Effect → Prop} (hhangs : hangs effect) :
    p.attended.Course hangs t none := by
  obtain ⟨-, hgo⟩ | ⟨⟨a, ha⟩, -⟩ := h.onCourse hp
  · have hcourse := hgo hangs [] none (.unanswered hhangs _)
    rwa [List.append_nil] at hcourse
  · cases ha

/-- A run for a listener goes on from wherever a program is. -/
theorem run (h : p.Reaches t q) (listener : Listener) (host : Program.Host Effect Effect.Answer σ)
    (moment : Nat) (s : σ) :
    ∃ last, p.Reaches (t ++ (listener.run host q moment s).exchanges) last := by
  induction q generalizing t moment s with
  | done a =>
    rw [Listener.run, List.append_nil]
    exact ⟨_, h⟩
  | ask inquiry next ih =>
    cases inquiry with
    | look => exact ih _ (h.looked _) moment s
    | glance => exact ih _ (h.glanced _) moment s
    | perform effect =>
      rw [Listener.run]
      cases host effect s with
      | none =>
        rw [List.append_nil]
        exact ⟨_, h⟩
      | some answer =>
        obtain ⟨last, hlast⟩ := ih answer.1 (h.answered answer.1) (moment + 1) answer.2
        rw [List.append_assoc] at hlast
        exact ⟨last, hlast⟩

/-- A run that comes to a stand has asked for an effect that the host does not answer. -/
theorem unanswered (h : p.Reaches t q) (listener : Listener)
    (host : Program.Host Effect Effect.Answer σ) (moment : Nat) (s : σ)
    (hnone : (listener.run host q moment s).outcome = none) :
    ∃ effect next, p.Reaches (t ++ (listener.run host q moment s).exchanges)
        (.ask (.perform effect) next) ∧
      host effect (listener.run host q moment s).state = none := by
  induction q generalizing t moment s with
  | done a => cases hnone
  | ask inquiry next ih =>
    cases inquiry with
    | look => exact ih _ (h.looked _) moment s hnone
    | glance => exact ih _ (h.glanced _) moment s hnone
    | perform effect =>
      rw [Listener.run] at hnone ⊢
      cases hanswer : host effect s with
      | none =>
        rw [List.append_nil]
        exact ⟨effect, next, h, hanswer⟩
      | some answer =>
        rw [hanswer] at hnone
        obtain ⟨last, behind, hlast, hstate⟩ :=
          ih answer.1 (h.answered answer.1) (moment + 1) answer.2 hnone
        rw [List.append_assoc] at hlast
        exact ⟨last, behind, hlast, hstate⟩

end Reaches

end HeedfulProgram

namespace Assignment

variable {assignment : Assignment} {scope : TurnScope}

/-- An assignment under way goes by the rules, and whatever it asks next may stay without an
answer. -/
theorem reported_of_reaches {t : List TurnExchange} {left : HeedfulProgram Unit}
    (h : (assignment.heedful scope).Reaches t left) :
    ∃ o, Heedful.Reported (fun _ => True) (assignment.Performed (fun _ => True) scope) t o := by
  obtain ⟨o, hcourse⟩ := h.course (assignment.watchful_heedful scope)
  refine ⟨o, ?_⟩
  cases assignment with
  | prepared turn => exact (Turn.goes_perform scope turn).reported hcourse
  | requested request => exact (TurnRequest.goes_perform scope request).reported hcourse

/-- A run of an assignment is the assignment under way, up to where the run ends. -/
theorem reaches_run (assignment : Assignment) (scope : TurnScope) (listener : Listener)
    (host : Program.Host Effect Effect.Answer σ) (s : σ) :
    ∃ left, (assignment.heedful scope).Reaches (assignment.run scope listener host s).exchanges
      left :=
  HeedfulProgram.Reaches.start.run listener host 0 s

end Assignment

end Colloquy
