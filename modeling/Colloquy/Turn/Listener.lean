import Colloquy.Turn.Heed

/-!
# Listeners

A listener goes away at some moment or stays. Moments are counted by the effects that went before:
whoever leaves at `n` is there when the effect number `n` could start, counted from zero, only if an
earlier effect is still going on. A look always finds out; a glance does so only when the program
has to wait.
-/

namespace Colloquy

/-- A listener. -/
structure Listener where
  /-- How many effects are over when the listener goes; one who stays never does. -/
  leaves : Option Nat
  /-- Whether the program has to wait before an effect, and so catches sight of a listener who is
  gone. -/
  caught : Nat → Bool

namespace Listener

/-- The listener who stays. -/
def steady : Listener :=
  ⟨none, fun _ => false⟩

/-- Whether the listener is gone when so many effects are over. -/
def isGone (listener : Listener) (moment : Nat) : Bool :=
  listener.leaves.any (· ≤ moment)

/-- Runs a heedful program for a listener under a host that answers the effects, when some effects
are over already. -/
def run {α σ : Type} (listener : Listener) (host : Program.Host Effect Effect.Answer σ) :
    HeedfulProgram α → (moment : Nat) → σ → Program.Run Effect.Answer α σ
  | .done a, _, s => ⟨[], some a, s⟩
  | .ask .look next, moment, s => listener.run host (next (listener.isGone moment)) moment s
  | .ask .glance next, moment, s =>
    listener.run host (next (listener.isGone moment && listener.caught moment)) moment s
  | .ask (.perform effect) next, moment, s =>
    match host effect s with
    | none => ⟨[], none, s⟩
    | some (answer, s) =>
      let rest := listener.run host (next answer) (moment + 1) s
      ⟨⟨effect, answer⟩ :: rest.exchanges, rest.outcome, rest.state⟩

end Listener

end Colloquy
