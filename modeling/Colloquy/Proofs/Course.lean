import Colloquy.Program

/-!
# Courses of programs

A course of a program is a list of exchanges that it can have with some host, together with how it
ends behind them. Of the host, it is only known which questions may stay without an answer. Every
run under a host is a course, and the courses of a composed program are composed of courses of its
parts, so that a statement about all runs under all hosts is proved without any host.
-/

namespace Colloquy.Program

variable {E : Type} {Answer : E → Type} {α β σ : Type} {hangs : E → Prop}

/-- The exchanges that a program can go through, and how it ends behind them: not at all when its
next question hangs. -/
inductive Course (hangs : E → Prop) :
    Program E Answer α → List (Exchange Answer) → Option α → Prop
  /-- A program that has ended asks nothing more. -/
  | done (a : α) : Course hangs (done a) [] (some a)
  /-- A question that hangs stays without an answer. -/
  | unanswered {question : E} (hhangs : hangs question)
    (next : Answer question → Program E Answer α) :
    Course hangs (ask question next) [] none
  /-- An answer takes the program further. -/
  | answered {question : E} {next : Answer question → Program E Answer α} (answer : Answer question)
    {exchanges : List (Exchange Answer)} {outcome : Option α} :
    Course hangs (next answer) exchanges outcome →
      Course hangs (ask question next) (⟨question, answer⟩ :: exchanges) outcome

/-- Every run is a course, in which only that hangs which the host does not answer at the end. -/
theorem course_run (host : Host E Answer σ) (p : Program E Answer α) (s : σ) :
    p.Course (host · (p.run host s).state = none) (p.run host s).exchanges
      (p.run host s).outcome := by
  induction p generalizing s with
  | done a => exact .done a
  | ask question next ih =>
    rw [run]
    cases h : host question s with
    | none =>
      refine .unanswered ?_ next
      exact h
    | some answer => exact .answered answer.1 (ih answer.1 answer.2)

@[simp]
theorem course_done_iff (a : α) (t : List (Exchange Answer)) (o : Option α) :
    (done a : Program E Answer α).Course hangs t o ↔ t = [] ∧ o = some a := by
  constructor
  · rintro ⟨⟩
    exact ⟨rfl, rfl⟩
  · rintro ⟨rfl, rfl⟩
    exact .done a

@[simp]
theorem course_ask_iff (question : E) (next : Answer question → Program E Answer α)
    (t : List (Exchange Answer)) (o : Option α) :
    (ask question next).Course hangs t o ↔
      hangs question ∧ t = [] ∧ o = none ∨
        ∃ answer rest, t = ⟨question, answer⟩ :: rest ∧ (next answer).Course hangs rest o := by
  constructor
  · rintro (_ | hhangs | ⟨answer, h⟩)
    · exact .inl ⟨hhangs, rfl, rfl⟩
    · exact .inr ⟨answer, _, rfl, h⟩
  · rintro (⟨hhangs, rfl, rfl⟩ | ⟨answer, rest, rfl, h⟩)
    · exact .unanswered hhangs next
    · exact .answered answer h

/-- What may hang less often goes through the same. -/
theorem Course.mono {hangs' : E → Prop} (hmono : ∀ question, hangs question → hangs' question)
    {p : Program E Answer α} {t : List (Exchange Answer)} {o : Option α}
    (h : p.Course hangs t o) : p.Course hangs' t o := by
  induction h with
  | done a => exact .done a
  | unanswered hhangs next => exact .unanswered (hmono _ hhangs) next
  | answered answer _ ih => exact .answered answer ih

/-- A course of one program and another behind it stops in the first one or goes through both. -/
theorem course_bind_iff (p : Program E Answer α) (f : α → Program E Answer β)
    (t : List (Exchange Answer)) (o : Option β) :
    (p >>= f).Course hangs t o ↔
      p.Course hangs t none ∧ o = none ∨
        ∃ a t₁ t₂, t = t₁ ++ t₂ ∧ p.Course hangs t₁ (some a) ∧ (f a).Course hangs t₂ o := by
  induction p generalizing t with
  | done a =>
    rw [bind_done]
    constructor
    · exact fun h => .inr ⟨a, [], t, rfl, .done a, h⟩
    · rintro (⟨h, -⟩ | ⟨b, t₁, t₂, rfl, h₁, h₂⟩)
      · simp at h
      · obtain ⟨rfl, hb⟩ := (course_done_iff _ _ _).mp h₁
        cases hb
        exact h₂
  | ask question next ih =>
    rw [bind_ask, course_ask_iff, course_ask_iff]
    constructor
    · rintro (⟨hhangs, rfl, rfl⟩ | ⟨answer, rest, rfl, h⟩)
      · exact .inl ⟨.inl ⟨hhangs, rfl, rfl⟩, rfl⟩
      · obtain ⟨hstop, rfl⟩ | ⟨a, t₁, t₂, rfl, h₁, h₂⟩ := (ih answer rest).mp h
        · exact .inl ⟨.inr ⟨answer, rest, rfl, hstop⟩, rfl⟩
        · exact .inr ⟨a, ⟨question, answer⟩ :: t₁, t₂, rfl, .answered answer h₁, h₂⟩
    · rintro (⟨⟨hhangs, rfl, -⟩ | ⟨answer, rest, rfl, h⟩, rfl⟩ | ⟨a, t₁, t₂, rfl, h₁, h₂⟩)
      · exact .inl ⟨hhangs, rfl, rfl⟩
      · exact .inr ⟨answer, rest, rfl, (ih answer rest).mpr (.inl ⟨h, rfl⟩)⟩
      · obtain ⟨-, -, hnone⟩ | ⟨answer, rest, rfl, hrest⟩ := (course_ask_iff ..).mp h₁
        · cases hnone
        · exact .inr ⟨answer, rest ++ t₂, rfl,
            (ih answer _).mpr (.inr ⟨a, rest, t₂, rfl, hrest, h₂⟩)⟩

/-- What a program ends with may be changed without another question. -/
theorem course_map_iff (p : Program E Answer α) (f : α → β) (t : List (Exchange Answer))
    (o : Option β) :
    (p >>= fun a => pure (f a)).Course hangs t o ↔ ∃ o', p.Course hangs t o' ∧ o = o'.map f := by
  rw [course_bind_iff]
  constructor
  · rintro (⟨h, rfl⟩ | ⟨a, t₁, t₂, rfl, h₁, h₂⟩)
    · exact ⟨none, h, rfl⟩
    · obtain ⟨rfl, rfl⟩ := (course_done_iff _ _ _).mp h₂
      rw [List.append_nil]
      exact ⟨some a, h₁, rfl⟩
  · rintro ⟨_ | a, h, rfl⟩
    · exact .inl ⟨h, rfl⟩
    · exact .inr ⟨a, t, [], (List.append_nil t).symm, h, .done _⟩

/-- The only course of a program that asks one question: it is answered or not. -/
theorem course_query_iff (question : E) (t : List (Exchange Answer))
    (o : Option (Answer question)) :
    (query question : Program E Answer _).Course hangs t o ↔
      hangs question ∧ t = [] ∧ o = none ∨
        ∃ answer, t = [⟨question, answer⟩] ∧ o = some answer := by
  rw [query, course_ask_iff]
  constructor
  · rintro (h | ⟨answer, rest, rfl, h⟩)
    · exact .inl h
    · obtain ⟨rfl, rfl⟩ := (course_done_iff _ _ _).mp h
      exact .inr ⟨answer, rfl, rfl⟩
  · rintro (h | ⟨answer, rfl, rfl⟩)
    · exact .inl h
    · exact .inr ⟨answer, [], rfl, .done answer⟩

/-- A host passes from one state to another as it answers the questions of some exchanges. -/
def Host.Leads (host : Host E Answer σ) : σ → List (Exchange Answer) → σ → Prop
  | s, [], s' => s = s'
  | s, ⟨question, answer⟩ :: rest, s' =>
    ∃ next, host question s = some (answer, next) ∧ host.Leads next rest s'

/-- A run takes the host from its first state to its last. -/
theorem leads_run (host : Host E Answer σ) (p : Program E Answer α) (s : σ) :
    host.Leads s (p.run host s).exchanges (p.run host s).state := by
  induction p generalizing s with
  | done a => rfl
  | ask question next ih =>
    rw [run]
    cases h : host question s with
    | none => rfl
    | some answer => exact ⟨answer.2, h, ih answer.1 answer.2⟩

theorem Host.leads_append_iff (host : Host E Answer σ) (s s' : σ) (t₁ t₂ : List (Exchange Answer)) :
    host.Leads s (t₁ ++ t₂) s' ↔ ∃ next, host.Leads s t₁ next ∧ host.Leads next t₂ s' := by
  induction t₁ generalizing s with
  | nil => simp [Leads]
  | cons exchange t₁ ih =>
    simp only [List.cons_append, Leads, ih]
    constructor
    · rintro ⟨mid, h, next, h₁, h₂⟩
      exact ⟨next, ⟨mid, h, h₁⟩, h₂⟩
    · rintro ⟨next, ⟨mid, h, h₁⟩, h₂⟩
      exact ⟨mid, h, next, h₁, h₂⟩

end Colloquy.Program
