/-!
# Programs

A program asks for one thing after another and goes on as each answer tells it. It is a tree: a question
with one program behind each of its answers. It has no state of its own; a host that answers the
questions has one, and a run of the program under a host is the exchange of questions and answers
between the two. A host may leave a question unanswered for ever, and the run ends there.
-/

namespace Colloquy

/-- A program that asks questions of type `E`, each with a type of answers, and ends with an `α`. -/
inductive Program (E : Type) (Answer : E → Type) (α : Type) where
  /-- It ends. -/
  | done (a : α)
  /-- It asks a question and goes on behind the answer. -/
  | ask (question : E) (next : Answer question → Program E Answer α)

namespace Program

variable {E : Type} {Answer : E → Type} {α β γ σ : Type}

/-- One program, and behind it another that knows how it ended. -/
def bind : Program E Answer α → (α → Program E Answer β) → Program E Answer β
  | done a, f => f a
  | ask question next, f => ask question fun answer => (next answer).bind f

instance : Monad (Program E Answer) where
  pure := done
  bind := bind

@[simp]
theorem pure_eq_done (a : α) : (pure a : Program E Answer α) = done a := rfl

@[simp]
theorem bind_done (a : α) (f : α → Program E Answer β) : done a >>= f = f a := rfl

@[simp]
theorem bind_ask (question : E) (next : Answer question → Program E Answer α)
    (f : α → Program E Answer β) :
    ask question next >>= f = ask question fun answer => next answer >>= f := rfl

theorem bind_pure (p : Program E Answer α) : p >>= pure = p := by
  induction p with
  | done a => rfl
  | ask question next ih => exact congrArg (ask question) (funext ih)

theorem bind_assoc (p : Program E Answer α) (f : α → Program E Answer β)
    (g : β → Program E Answer γ) : p >>= f >>= g = p >>= fun a => f a >>= g := by
  induction p with
  | done a => rfl
  | ask question next ih => exact congrArg (ask question) (funext ih)

instance : LawfulMonad (Program E Answer) :=
  LawfulMonad.mk' (Program E Answer) bind_pure (fun _ _ => rfl) bind_assoc

/-- The program that asks one question and ends with the answer. -/
def query (question : E) : Program E Answer (Answer question) :=
  ask question done

/-- A question and its answer. -/
abbrev Exchange (Answer : E → Type) :=
  (question : E) × Answer question

/-- A host with states of type `σ`: it answers a question and changes, or never answers. -/
abbrev Host (E : Type) (Answer : E → Type) (σ : Type) :=
  (question : E) → σ → Option (Answer question × σ)

/-- What comes of running a program under a host. -/
structure Run (Answer : E → Type) (α σ : Type) where
  /-- The questions and their answers, in their order. -/
  exchanges : List (Exchange Answer)
  /-- How the program ended, unless some question was never answered. -/
  outcome : Option α
  /-- The last state of the host. -/
  state : σ

/-- Runs a program under a host. -/
def run (host : Host E Answer σ) : Program E Answer α → σ → Run Answer α σ
  | done a, s => ⟨[], some a, s⟩
  | ask question next, s =>
    match host question s with
    | none => ⟨[], none, s⟩
    | some (answer, s) =>
      let rest := (next answer).run host s
      ⟨⟨question, answer⟩ :: rest.exchanges, rest.outcome, rest.state⟩

/-- What comes of a run when another one follows that knows how the first one ended. -/
def Run.andThen (first : Run Answer α σ) (second : α → σ → Run Answer β σ) : Run Answer β σ :=
  match first.outcome with
  | none => ⟨first.exchanges, none, first.state⟩
  | some a =>
    let rest := second a first.state
    ⟨first.exchanges ++ rest.exchanges, rest.outcome, rest.state⟩

/-- Programs one behind the other run one behind the other. -/
theorem run_bind (host : Host E Answer σ) (p : Program E Answer α) (f : α → Program E Answer β)
    (s : σ) : (p >>= f).run host s = (p.run host s).andThen fun a s => (f a).run host s := by
  induction p generalizing s with
  | done a => rfl
  | ask question next ih =>
    rw [bind_ask, run, run]
    cases host question s with
    | none => rfl
    | some answer =>
      simp only [ih, Run.andThen]
      cases (run host (next answer.1) answer.2).outcome <;> rfl

/-- Runs a program in a monad that answers every question. -/
def runIn {m : Type → Type} [Monad m] (answer : (question : E) → m (Answer question)) :
    Program E Answer α → m α
  | done a => pure a
  | ask question next => do (next (← answer question)).runIn answer

end Program

end Colloquy
