import Colloquy.Turn
import Colloquy.Turn.Parties

/-!
# Rehearsals

Turns one after another among the same parties, with everything from outside fixed: instants that are a
second apart, sessions and messages that are named by their numbers, calls that are refused by a plan, and
a listener who may stop listening. A turn can be ahead of its listener by the buffer of its settings; when
the listener has stopped, it comes to a stand there, and what it was about to do is never done.
-/

namespace Colloquy

/-- The calls that a plan may refuse. -/
inductive Refusable where
  /-- Looking up an agent. -/
  | findAgent
  /-- Opening a session. -/
  | openSession
  /-- Appending a message. -/
  | append
  /-- Reading the last messages. -/
  | recentHistory
  /-- Writing to the log. -/
  | writeLog
  deriving DecidableEq, Repr

/-- Which of the calls that may be refused an effect is. -/
def Effect.refusable? : Effect → Option Refusable
  | .findAgent _ => some .findAgent
  | .openSession _ _ => some .openSession
  | .append _ _ => some .append
  | .recentHistory _ _ => some .recentHistory
  | .writeLog _ => some .writeLog
  | _ => none

/-- The answer that refuses an effect, if it may be refused. -/
def Effect.refusal? (fault : StoreFault) : (effect : Effect) → Option effect.Answer
  | .findAgent _ => some (.error fault)
  | .openSession _ _ => some (.error fault)
  | .append _ _ => some (.error fault)
  | .recentHistory _ _ => some (.error fault)
  | .writeLog _ => some (.error fault)
  | _ => none

/-- A plan says of the n-th call of a kind, counted from one, how it is refused, if it is. -/
abbrev RefusalPlan := Refusable → Nat → Option StoreFault

/-- A rehearsal. -/
structure Rehearsal (σ : Type) where
  /-- The parties. -/
  parties : Parties σ
  /-- The time. -/
  now : Instant
  /-- How many sessions were opened and how many messages appended. -/
  names : NameCount
  /-- The kinds of the calls that may be refused, up to now. -/
  calls : List Refusable
  /-- How many items may still be delivered, if that is bounded. -/
  room : Option Nat

namespace Rehearsal

variable {σ : Type}

/-- A rehearsal before its first turn. -/
def ofParties (parties : Parties σ) (now : Instant) : Rehearsal σ :=
  ⟨parties, now, .zero, [], none⟩

/-- The new name that an effect is given. -/
def newName (rehearsal : Rehearsal σ) (effect : Effect) : String :=
  (effect.nameUse?.map rehearsal.names.next).getD ""

/-- The rehearsal after an effect that the parties answered. -/
def counted (rehearsal : Rehearsal σ) : (effect : Effect) → effect.Answer → Rehearsal σ
  | .openSession _ _, .ok _ => { rehearsal with names := rehearsal.names.after .session }
  | .append _ _, .ok _ => { rehearsal with names := rehearsal.names.after .message }
  | .deliver _, _ => { rehearsal with room := rehearsal.room.map (· - 1) }
  | _, _ => rehearsal

/-- How the plan refuses an effect behind earlier calls, if it does. -/
def refused (plan : RefusalPlan) (calls : List Refusable) (effect : Effect) :
    Option effect.Answer := do
  let kind ← effect.refusable?
  let fault ← plan kind (calls.count kind + 1)
  effect.refusal? fault

/-- Whether an effect is an item that there is no room for. -/
def isBlocked (rehearsal : Rehearsal σ) : Effect → Bool
  | .deliver _ => rehearsal.room == some 0
  | _ => false

/-- Answers an effect by the plan or by the parties. -/
def host [SessionStore σ] [ExecutionLog σ] (plan : RefusalPlan) :
    Program.Host Effect Effect.Answer (Rehearsal σ) := fun effect rehearsal =>
  let next := { rehearsal with
    now := ⟨rehearsal.now.seconds + 1, rehearsal.now.nanos⟩
    calls := rehearsal.calls ++ effect.refusable?.toList }
  if rehearsal.isBlocked effect then none
  else
    match refused plan rehearsal.calls effect with
    | some answer => some (answer, next)
    | none => do
      let stamp := ⟨rehearsal.now, rehearsal.newName effect⟩
      let (answer, parties) ← rehearsal.parties.respond stamp effect
      some (answer, { next with parties }.counted effect answer)

/-- Rehearses a program for a listener who takes a number of items and then stops listening, or takes
them all. For one who takes none, the program is never started. -/
def rehearse [SessionStore σ] [ExecutionLog σ] (plan : RefusalPlan) (buffer : Nat)
    (listens : Option Nat) (program : TurnProgram Unit) (rehearsal : Rehearsal σ) :
    Program.Run Effect.Answer Unit (Rehearsal σ) :=
  match listens with
  | some 0 => ⟨[], none, rehearsal⟩
  | some most => program.run (host plan) { rehearsal with room := some (most + buffer) }
  | none => program.run (host plan) { rehearsal with room := none }

end Rehearsal

end Colloquy
