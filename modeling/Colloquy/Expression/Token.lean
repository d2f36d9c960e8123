import Colloquy.Decimal.Layout
import Colloquy.Decimal.Nearest
import Colloquy.Text.Blank
import Colloquy.Text.Scan

/-!
# Tokens of arithmetic expressions

An expression is made of numbers, six operators and parentheses, with any blanks between them. A
number is the longest run of digits and points, and has to have a digit and at most one point.
-/

namespace Colloquy.Expression

/-- An operator. -/
inductive Operator where
  /-- Addition. -/
  | plus
  /-- Subtraction, or the sign in front of an operand. -/
  | minus
  /-- Multiplication. -/
  | times
  /-- Division. -/
  | over
  /-- Remainder. -/
  | modulo
  /-- Power. -/
  | power
  deriving DecidableEq, Repr

/-- The sign of an operator. -/
def Operator.sign : Operator → Char
  | .plus => '+'
  | .minus => '-'
  | .times => '*'
  | .over => '/'
  | .modulo => '%'
  | .power => '^'

/-- A token. -/
inductive Token where
  /-- A number. -/
  | number (x : Float)
  /-- An operator. -/
  | operator (op : Operator)
  /-- An opening parenthesis. -/
  | opening
  /-- A closing parenthesis. -/
  | closing
  deriving DecidableEq

/-- Numbers in messages have at least one decimal, and an exponent below `10^-4` and from `10^16`
on. -/
def tokenLayout : Decimal.Layout :=
  ⟨fun exponent => -4 ≤ exponent && exponent ≤ 15, ".0", "", .up, "NaN", "inf"⟩

/-- A token as messages show it. -/
def Token.show : Token → String
  | .number x => "Num(" ++ tokenLayout.float x ++ ")"
  | .operator op => "Op('" ++ op.sign.toString ++ "')"
  | .opening => "Open"
  | .closing => "Close"

/-- Why an expression has no value. -/
inductive Fault where
  /-- It has too many characters. -/
  | tooLong
  /-- A run of digits and points that is no number. -/
  | invalidNumber (literal : String)
  /-- A character that belongs to no token. -/
  | unexpectedCharacter (c : Char)
  /-- Operands stand too deep inside one another. -/
  | tooDeep
  /-- A divisor is zero. -/
  | divisionByZero
  /-- A token stands where an operand should. -/
  | unexpected (token : Token)
  /-- A token stands behind a complete expression. -/
  | leftOver (token : Token) (position : Nat)
  /-- A parenthesis is not closed. -/
  | unclosed
  /-- The tokens end where an operand should stand. -/
  | incomplete
  deriving DecidableEq

/-- The most characters of an expression. -/
def maxCharacters : Nat := 4096

/-- The wording of a fault. -/
def Fault.message : Fault → String
  | .tooLong => "Expression longer than " ++ toString maxCharacters ++ " characters"
  | .invalidNumber literal => "Invalid number: " ++ literal
  | .unexpectedCharacter c => "Unexpected character: '" ++ c.toString ++ "'"
  | .tooDeep => "Expression nested too deeply"
  | .divisionByZero => "Division by zero"
  | .unexpected token => "Unexpected " ++ token.show
  | .leftOver token position => "Unexpected " ++ token.show ++ " at token " ++ toString position
  | .unclosed => "Expected closing parenthesis"
  | .incomplete => "Unexpected end of expression"

/-- The characters of numbers. -/
def isNumberChar (c : Char) : Bool :=
  c.isDigit || c == '.'

/-- The number that a run of digits and points denotes: it has a digit and at most one point. -/
def number? (literal : List Char) : Option Float :=
  let whole := literal.takeWhile Char.isDigit
  let fraction := (literal.dropWhile Char.isDigit).drop 1
  if fraction.all Char.isDigit && (whole ++ fraction).length ≠ 0 then
    some (Decimal.Scaled.toFloat ⟨Text.Scan.digitsValue (whole ++ fraction), -fraction.length⟩)
  else none

/-- The token that is one character. -/
def symbol? : Char → Option Token
  | '+' => some (.operator .plus)
  | '-' => some (.operator .minus)
  | '*' => some (.operator .times)
  | '/' => some (.operator .over)
  | '%' => some (.operator .modulo)
  | '^' => some (.operator .power)
  | '(' => some .opening
  | ')' => some .closing
  | _ => none

/-- Dropping a run does not make a list longer. -/
private theorem length_dropWhile_le (p : Char → Bool) (cs : List Char) :
    (cs.dropWhile p).length ≤ cs.length := by
  induction cs with
  | nil => exact Nat.le_refl _
  | cons c cs ih =>
    rw [List.dropWhile_cons]
    split
    · exact Nat.le_succ_of_le ih
    · exact Nat.le_refl _

/-- The tokens of a text. -/
def tokens : List Char → Except Fault (List Token)
  | [] => .ok []
  | c :: rest =>
    if Text.isBlank c then tokens rest
    else match symbol? c with
      | some token => do
        let more ← tokens rest
        .ok (token :: more)
      | none =>
        if isNumberChar c then
          let literal := c :: rest.takeWhile isNumberChar
          match number? literal with
          | some x => do
            let more ← tokens (rest.dropWhile isNumberChar)
            .ok (.number x :: more)
          | none => .error (.invalidNumber (String.ofList literal))
        else .error (.unexpectedCharacter c)
termination_by cs => cs.length
decreasing_by
  all_goals simp only [List.length_cons]
  · omega
  · omega
  · exact Nat.lt_succ_of_le (length_dropWhile_le ..)

end Colloquy.Expression
