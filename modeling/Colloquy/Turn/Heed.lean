import Colloquy.Turn.Effect

/-!
# Heedful programs

A turn works for a listener, who may go away at any time. A heedful program looks for its listener
before it starts anything, and stops when the listener is gone. What has to be done in several
effects is watched over: if it has to wait in between, the program looks again.
-/

namespace Colloquy

/-- What a heedful program asks. -/
inductive Inquiry where
  /-- For an effect. -/
  | perform (effect : Effect)
  /-- Whether the listener is gone. -/
  | look
  /-- Whether the listener is gone, if the program has to wait just then; else the answer is no. -/
  | glance

/-- The answers to an inquiry. -/
@[reducible]
def Inquiry.Answer : Inquiry → Type
  | .perform effect => effect.Answer
  | .look | .glance => Bool

/-- A program of effects that looks for its listener. -/
abbrev HeedfulProgram := Program Inquiry Inquiry.Answer

/-- The program of effects that is left for a listener who stays. -/
def HeedfulProgram.attended {α : Type} : HeedfulProgram α → TurnProgram α
  | .done a => .done a
  | .ask (.perform effect) next => .ask effect fun answer => attended (next answer)
  | .ask .look next | .ask .glance next => attended (next false)

/-- Why a heedful program ends early. -/
inductive Interruption where
  /-- The listener is gone. -/
  | gone
  /-- A party failed. -/
  | fault (fault : Fault)
  deriving DecidableEq, Repr

/-- A heedful program that may end early. -/
abbrev Heedful := ExceptT Interruption HeedfulProgram

namespace Heedful

variable {α : Type}

/-- An inquiry whose answer is not an interruption. -/
def inquire (inquiry : Inquiry) : Heedful inquiry.Answer :=
  ExceptT.lift (Program.query inquiry)

/-- Performs a program of effects and glances at the listener before each of them. -/
def watch : TurnProgram α → Heedful α
  | .done a => pure a
  | .ask effect next => do
    let gone : Bool ← inquire .glance
    if gone then throw .gone
    else
      let answer : effect.Answer ← inquire (.perform effect)
      watch (next answer)

/-- Performs a program of effects, unless the listener is gone. -/
def guard (program : TurnProgram α) : Heedful α := do
  let gone : Bool ← inquire .look
  if gone then throw .gone else watch program

/-- Makes an attempt, whose fault is an interruption, unless the listener is gone. -/
def ofAttempt (attempt : Attempt α) : Heedful α := do
  match ← guard attempt.run with
  | .ok a => pure a
  | .error fault => throw (.fault fault)

/-- Waits for what comes by itself, unless the listener is gone. -/
def await : Heedful Unit :=
  guard (pure ())

/-- Delivers a piece of text. -/
def say (piece : String) : Heedful Unit :=
  guard (Effect.ask (.deliver (.ok piece)))

/-- Never ends by itself. -/
def waitForever : Heedful α :=
  guard (Program.ask .waitForever Empty.elim)

/-- The program that also delivers the fault that ends another early, if someone still listens. -/
def reported (heedful : Heedful Unit) : HeedfulProgram Unit := do
  match ← heedful.run with
  | .ok () | .error .gone => pure ()
  | .error (.fault fault) =>
    let _ ← (guard (Effect.ask (.deliver (.error fault)))).run
    pure ()

end Heedful

end Colloquy
