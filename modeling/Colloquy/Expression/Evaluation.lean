import Colloquy.Decimal.Remainder
import Colloquy.Expression.Lexer

/-!
# Values of arithmetic expressions

The value of a list of tokens by the grammar

* sum: products, added and subtracted from left to right,
* product: powers, multiplied, divided and reduced from left to right,
* power: an operand, raised to a power if the sign of power follows,
* operand: an atom behind any number of minus signs,
* atom: a number, or a sum in parentheses.

Each part reads its tokens from the front and says what it leaves. The right side of a power, the
operand behind a minus sign and the sum in parentheses stand one level deeper, and levels are
bounded; so is the number of steps, since every part but an empty continuation takes a token.
-/

namespace Colloquy.Expression

/-- The deepest level. -/
def maxLevel : Nat := 128

/-- A place among the tokens. -/
structure Cursor where
  /-- The tokens that are left. -/
  rest : List Token
  /-- How many tokens were taken. -/
  taken : Nat
  /-- The level. -/
  level : Nat
  deriving DecidableEq

/-- The place one token further, with `rest` left. -/
def Cursor.past (c : Cursor) (rest : List Token) : Cursor :=
  ⟨rest, c.taken + 1, c.level⟩

/-- The place one level deeper. -/
def Cursor.enter (c : Cursor) : Cursor :=
  { c with level := c.level + 1 }

/-- The place one level higher. -/
def Cursor.leave (c : Cursor) : Cursor :=
  { c with level := c.level - 1 }

/-- What a part of an expression comes to when it is read from the place `start`. -/
structure Part (start : Cursor) where
  /-- The value, or why there is none. -/
  value : Except Fault Float
  /-- The place behind the part, or where the fault was found. -/
  stop : Cursor
  /-- No token is ever put back. -/
  le_start : stop.rest.length ≤ start.rest.length

namespace Part

/-- A fault that is found at the place `start`. -/
def fault {start : Cursor} (fault : Fault) : Part start :=
  ⟨.error fault, start, Nat.le_refl _⟩

/-- A value that takes no token. -/
def pure {start : Cursor} (x : Float) : Part start :=
  ⟨.ok x, start, Nat.le_refl _⟩

/-- A part that was read from a place further on is one from here. -/
def further {start : Cursor} (place : Cursor) (h : place.rest.length ≤ start.rest.length)
    (part : Part place) : Part start :=
  ⟨part.value, part.stop, Nat.le_trans part.le_start h⟩

/-- A part of the next level. -/
def nested {start : Cursor} (part : Part start.enter) : Part start :=
  ⟨part.value, part.stop.leave, part.le_start⟩

/-- The part together with what the next step makes of its value; a fault ends it. -/
def andThen {start : Cursor} (part : Part start)
    (next : Float → (place : Cursor) → place.rest.length ≤ start.rest.length → Part place) :
    Part start :=
  match part.value with
  | .error fault => ⟨.error fault, part.stop, part.le_start⟩
  | .ok x => further part.stop part.le_start (next x part.stop part.le_start)

end Part

/-- An operation of two numbers that needs a divisor other than zero. -/
def divided (operation : Float → Float → Float) (x y : Float) : Except Fault Float :=
  if y == 0 then .error .divisionByZero else .ok (operation x y)

/-- The operation of a sign between two products. -/
def sumOperation? : Token → Option (Float → Float → Except Fault Float)
  | .operator .plus => some fun x y => .ok (x + y)
  | .operator .minus => some fun x y => .ok (x - y)
  | _ => none

/-- The operation of a sign between two powers. -/
def productOperation? : Token → Option (Float → Float → Except Fault Float)
  | .operator .times => some fun x y => .ok (x * y)
  | .operator .over => some (divided (· / ·))
  | .operator .modulo => some (divided Decimal.remainder)
  | _ => none

/-- The measure of the recursion: fewer tokens are left, or as many and a lower part is read. -/
private theorem measure_lt {m n i j : Nat} (h : m < n ∨ m ≤ n ∧ i < j) :
    Prod.Lex (· < ·) (· < ·) (m, i) (n, j) := by
  rw [Prod.lex_def]
  simp only
  omega

private theorem past_lt {c : Cursor} {token : Token} {rest : List Token}
    (h : c.rest = token :: rest) : (c.past rest).rest.length < c.rest.length := by
  rw [h]
  exact Nat.lt_succ_self _

private theorem past_le {c : Cursor} {token : Token} {rest : List Token}
    (h : c.rest = token :: rest) : (c.past rest).rest.length ≤ c.rest.length :=
  Nat.le_of_lt (past_lt h)

mutual

/-- A sum. -/
def sum (c : Cursor) : Part c :=
  (product c).andThen fun x place _ => sumFrom x place
termination_by (c.rest.length, 4)
decreasing_by
  · exact measure_lt (.inr ⟨Nat.le_refl _, by decide⟩)
  · exact measure_lt (.inr ⟨‹_›, by decide⟩)

/-- A sum of which the part with the value `x` is read. -/
def sumFrom (x : Float) (c : Cursor) : Part c :=
  match h : c.rest with
  | [] => .pure x
  | token :: rest =>
    match sumOperation? token with
    | none => .pure x
    | some operation =>
      .further (c.past rest) (past_le h) <|
        (product (c.past rest)).andThen fun y place _ =>
          match operation x y with
          | .error fault => .fault fault
          | .ok z => sumFrom z place
termination_by (c.rest.length, 0)
decreasing_by
  · exact measure_lt (.inl (past_lt h))
  · exact measure_lt (.inl (Nat.lt_of_le_of_lt ‹_› (past_lt h)))

/-- A product. -/
def product (c : Cursor) : Part c :=
  (power c).andThen fun x place _ => productFrom x place
termination_by (c.rest.length, 3)
decreasing_by
  · exact measure_lt (.inr ⟨Nat.le_refl _, by decide⟩)
  · exact measure_lt (.inr ⟨‹_›, by decide⟩)

/-- A product of which the part with the value `x` is read. -/
def productFrom (x : Float) (c : Cursor) : Part c :=
  match h : c.rest with
  | [] => .pure x
  | token :: rest =>
    match productOperation? token with
    | none => .pure x
    | some operation =>
      .further (c.past rest) (past_le h) <|
        (power (c.past rest)).andThen fun y place _ =>
          match operation x y with
          | .error fault => .fault fault
          | .ok z => productFrom z place
termination_by (c.rest.length, 0)
decreasing_by
  · exact measure_lt (.inl (past_lt h))
  · exact measure_lt (.inl (Nat.lt_of_le_of_lt ‹_› (past_lt h)))

/-- A power. -/
def power (c : Cursor) : Part c :=
  (operand c).andThen fun base place _ =>
    match h : place.rest with
    | .operator .power :: rest =>
      .further (place.past rest) (past_le h) <|
        if maxLevel ≤ place.level then .fault .tooDeep
        else (Part.nested (power (place.past rest).enter)).andThen fun exponent _ _ =>
          .pure (Float.pow base exponent)
    | _ => .pure base
termination_by (c.rest.length, 2)
decreasing_by
  · exact measure_lt (.inr ⟨Nat.le_refl _, by decide⟩)
  · exact measure_lt (.inl (Nat.lt_of_lt_of_le (past_lt h) ‹_›))

/-- An operand. -/
def operand (c : Cursor) : Part c :=
  match h : c.rest with
  | .operator .minus :: rest =>
    .further (c.past rest) (past_le h) <|
      if maxLevel ≤ c.level then .fault .tooDeep
      else (Part.nested (operand (c.past rest).enter)).andThen fun x _ _ => .pure (-x)
  | _ => atom c
termination_by (c.rest.length, 1)
decreasing_by
  · exact measure_lt (.inl (past_lt h))
  · exact measure_lt (.inr ⟨Nat.le_refl _, by decide⟩)

/-- An atom. -/
def atom (c : Cursor) : Part c :=
  match h : c.rest with
  | [] => .fault .incomplete
  | token :: rest =>
    .further (c.past rest) (past_le h) <|
      match token with
      | .number x => .pure x
      | .opening =>
        if maxLevel ≤ c.level then .fault .tooDeep
        else (Part.nested (sum (c.past rest).enter)).andThen fun x place _ =>
          match h : place.rest with
          | [] => .fault .unclosed
          | .closing :: rest => .further (place.past rest) (past_le h) (.pure x)
          | _ :: rest => .further (place.past rest) (past_le h) (.fault .unclosed)
      | token => .fault (.unexpected token)
termination_by (c.rest.length, 0)
decreasing_by
  · exact measure_lt (.inl (past_lt h))

end

/-- The value of all the tokens. -/
def valueOf (ts : List Token) : Except Fault Float :=
  let part := sum ⟨ts, 0, 0⟩
  match part.value, part.stop.rest with
  | .ok _, token :: _ => .error (.leftOver token part.stop.taken)
  | value, _ => value

/-- The value of an expression. -/
def evaluate (expression : String) : Except Fault Float := do
  if maxCharacters < expression.length then .error .tooLong
  valueOf (← (lex expression).get (isSome_lex expression))

/-- What an expression that is not too long comes to is a matter of the tokens of its characters. -/
theorem evaluate_of_length_le {expression : String} (h : expression.length ≤ maxCharacters) :
    evaluate expression = tokens expression.toList >>= valueOf := by
  have htokens : (lex expression).get (isSome_lex expression) = tokens expression.toList :=
    Option.get_of_eq_some _ (lex_eq expression)
  rw [evaluate, if_neg (Nat.not_lt.mpr h), htokens]

theorem evaluate_of_lt_length {expression : String} (h : maxCharacters < expression.length) :
    evaluate expression = .error .tooLong := by
  rw [evaluate, if_pos h]
  rfl

end Colloquy.Expression
