import Colloquy.Expression.Evaluation
import Colloquy.Tool.Backend

/-!
# The calculator

A native function that evaluates the arithmetic expression among its parameters.
-/

namespace Colloquy.Toolbox

/-- The integer that a finite double is, if it is one. -/
def integer? (x : Float) : Option Int :=
  match Decimal.Reading.ofFloat x with
  | .finite negative magnitude =>
    let numerator := magnitude.significand * Nat.pow 2 magnitude.exponent.toNat
    let denominator := Nat.pow 2 (-magnitude.exponent).toNat
    if numerator % denominator = 0 then
      let n : Int := (numerator / denominator : Nat)
      some (if negative then -n else n)
    else none
  | _ => none

/-- A value as the calculator writes it: never with an exponent. An integer of at most fifteen
digits has no sign when it is zero. -/
def valueText (x : Float) : String :=
  match integer? x with
  | some n => if n.natAbs < 1000000000000000 then toString n else Decimal.Layout.plain.float x
  | none => Decimal.Layout.plain.float x

/-- The calculator. -/
def calculator : NativeFunction where
  name := "calculator"
  call parameters :=
    match (parameters.get? "expression").bind Json.asText? with
    | none => .error (.invalidArguments "expression is required")
    | some expression =>
      match Expression.evaluate expression with
      | .ok x => .ok (.text (valueText x))
      | .error fault => .error (.failed "calculator" fault.message)

end Colloquy.Toolbox
