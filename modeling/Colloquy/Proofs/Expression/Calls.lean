import Colloquy.Expression.Evaluation
import Mathlib.Logic.Relation

/-!
# The calls of the reader

The reader told moment by moment. A moment is a routine that is called or an answer that is handed
over, at a place among the tokens, and the calls that wait for it are kept on a stack. What follows a
moment is told without any recursion; from the call of a routine the moments run on to the answer that
the reader gives, with the stack as it was.
-/

namespace Colloquy.Expression

/-- The parts of an expression that are read by calls. -/
inductive Routine where
  /-- A sum. -/
  | sum
  /-- A product. -/
  | product
  /-- A power. -/
  | power
  /-- An operand. -/
  | operand
  /-- An atom. -/
  | atom
  deriving DecidableEq

/-- What a routine reads. -/
def Routine.read : (routine : Routine) → (c : Cursor) → Part c
  | sum => Expression.sum
  | product => Expression.product
  | power => Expression.power
  | operand => Expression.operand
  | atom => Expression.atom

/-- A call that waits for the answer of another one. -/
inductive Frame where
  /-- A sum waits for a product, which it joins to those before. -/
  | sum (join : Float → Except Fault Float)
  /-- A product waits for a power, which it joins to those before. -/
  | product (join : Float → Except Fault Float)
  /-- A power waits for its base. -/
  | base
  /-- A power waits for its exponent. -/
  | exponent (base : Float)
  /-- An operand waits for an atom. -/
  | bare
  /-- An operand waits for what is behind its minus sign. -/
  | negated
  /-- An atom waits for the sum in its parentheses. -/
  | group

namespace Frame

/-- Whether the call that is waited for is one level deeper. -/
def isDeeper : Frame → Bool
  | exponent _ | negated | group => true
  | _ => false

/-- Where a call that waited goes on: on its own level. -/
def back (frame : Frame) (place : Cursor) : Cursor :=
  if frame.isDeeper then place.leave else place

end Frame

/-- What happens at a moment. -/
inductive Task where
  /-- A routine is called. -/
  | call (routine : Routine)
  /-- The call that is at its end hands over what it came to. -/
  | answer (value : Except Fault Float)

/-- A moment of reading. -/
structure Moment where
  /-- What happens. -/
  task : Task
  /-- The place that the reader has come to. -/
  place : Cursor
  /-- The calls that wait, the latest first. -/
  stack : List Frame

namespace Moment

/-- A call one level deeper, unless there is none. -/
def deepen (routine : Routine) (frame : Frame) (place : Cursor) (stack : List Frame) : Moment :=
  if maxLevel ≤ place.level then ⟨.answer (.error .tooDeep), place, stack⟩
  else ⟨.call routine, place.enter, frame :: stack⟩

/-- A sum or product that has come to `x` goes on behind a sign of its own, and ends elsewhere. -/
def goOn (operation? : Token → Option (Float → Float → Except Fault Float)) (routine : Routine)
    (frame : (Float → Except Fault Float) → Frame) (x : Float) (place : Cursor)
    (stack : List Frame) : Moment :=
  match place.rest with
  | [] => ⟨.answer (.ok x), place, stack⟩
  | token :: rest =>
    match operation? token with
    | none => ⟨.answer (.ok x), place, stack⟩
    | some operation => ⟨.call routine, place.past rest, frame (operation x) :: stack⟩

/-- A sum or product goes on with what it comes to by one more part, unless that is a fault. -/
def joined (operation? : Token → Option (Float → Float → Except Fault Float)) (routine : Routine)
    (frame : (Float → Except Fault Float) → Frame) (joint : Except Fault Float) (place : Cursor)
    (stack : List Frame) : Moment :=
  match joint with
  | .error fault => ⟨.answer (.error fault), place, stack⟩
  | .ok x => goOn operation? routine frame x place stack

/-- What a routine begins with. -/
def start : Routine → Cursor → List Frame → Moment
  | .sum, place, stack => ⟨.call .product, place, .sum .ok :: stack⟩
  | .product, place, stack => ⟨.call .power, place, .product .ok :: stack⟩
  | .power, place, stack => ⟨.call .operand, place, .base :: stack⟩
  | .operand, place, stack =>
    match place.rest with
    | .operator .minus :: rest => deepen .operand .negated (place.past rest) stack
    | _ => ⟨.call .atom, place, .bare :: stack⟩
  | .atom, place, stack =>
    match place.rest with
    | [] => ⟨.answer (.error .incomplete), place, stack⟩
    | .number x :: rest => ⟨.answer (.ok x), place.past rest, stack⟩
    | .opening :: rest => deepen .sum .group (place.past rest) stack
    | token :: rest => ⟨.answer (.error (.unexpected token)), place.past rest, stack⟩

/-- What a call that waited does with the value that it is handed. -/
def resume : Frame → Float → Cursor → List Frame → Moment
  | .sum join, x, place, stack => joined sumOperation? .product .sum (join x) place stack
  | .product join, x, place, stack => joined productOperation? .power .product (join x) place stack
  | .base, x, place, stack =>
    match place.rest with
    | .operator .power :: rest => deepen .power (.exponent x) (place.past rest) stack
    | _ => ⟨.answer (.ok x), place, stack⟩
  | .exponent base, x, place, stack => ⟨.answer (.ok (Float.pow base x)), place, stack⟩
  | .bare, x, place, stack => ⟨.answer (.ok x), place, stack⟩
  | .negated, x, place, stack => ⟨.answer (.ok (-x)), place, stack⟩
  | .group, x, place, stack =>
    match place.rest with
    | [] => ⟨.answer (.error .unclosed), place, stack⟩
    | .closing :: rest => ⟨.answer (.ok x), place.past rest, stack⟩
    | _ :: rest => ⟨.answer (.error .unclosed), place.past rest, stack⟩

/-- The moment behind a moment; nothing follows an answer that no call waits for. A fault is handed
over from call to call. -/
def next? : Moment → Option Moment
  | ⟨.call routine, place, stack⟩ => some (start routine place stack)
  | ⟨.answer _, _, []⟩ => none
  | ⟨.answer (.error fault), place, frame :: stack⟩ =>
    some ⟨.answer (.error fault), frame.back place, stack⟩
  | ⟨.answer (.ok x), place, frame :: stack⟩ => some (resume frame x (frame.back place) stack)

/-- One moment leads to another, by any number of steps. -/
def Leads : Moment → Moment → Prop :=
  Relation.ReflTransGen fun moment next => moment.next? = some next

variable {moment next last : Moment} {stack : List Frame}

theorem Leads.step (h : moment.next? = some next) (hleads : Leads next last) : Leads moment last :=
  Relation.ReflTransGen.head h hleads

/-- What lies on the way to a moment that nothing follows leads to it. -/
theorem Leads.on_way (hlast : Leads moment last) (hend : last.next? = none)
    (hnext : Leads moment next) : Leads next last := by
  have hunique : Relator.RightUnique fun moment next : Moment => moment.next? = some next :=
    fun _ _ _ h h' => Option.some.inj (h.symm.trans h')
  rcases Relation.ReflTransGen.total_of_right_unique hunique hlast hnext with hbehind | hleads
  · rcases Relation.ReflTransGen.cases_head hbehind with rfl | ⟨_, hstep, -⟩
    · exact .refl
    · cases hend.symm.trans hstep
  · exact hleads

/-- The answer that a part gives. -/
def answering {c : Cursor} (part : Part c) (stack : List Frame) : Moment :=
  ⟨.answer part.value, part.stop, stack⟩

/-- Behind the answer of one part a call goes on to that of the part and the next step together. -/
theorem leads_andThen {c place : Cursor} {frame : Frame} {inner : Part place} {part : Part c}
    (hvalue : part.value = inner.value) (hstop : part.stop = frame.back inner.stop)
    {next : Float → (place : Cursor) → place.rest.length ≤ c.rest.length → Part place}
    (hnext : ∀ x hle, part.value = .ok x →
      Leads (resume frame x part.stop stack) (answering (next x part.stop hle) stack)) :
    Leads (answering inner (frame :: stack)) (answering (part.andThen next) stack) := by
  rw [Part.andThen]
  split
  · next fault hfault =>
    refine .step ?_ .refl
    rw [answering, ← hvalue, hfault, next?, ← hstop]
    rfl
  · next x hx =>
    refine .step ?_ (hnext x part.le_start hx)
    rw [answering, ← hvalue, hx, next?, ← hstop]

/-- A call one level deeper runs on to its answer and hands it back, if there is such a level. -/
theorem leads_deepen {routine : Routine} {frame : Frame} {place : Cursor} {stack : List Frame}
    (hframe : frame.isDeeper = true)
    (hcall : Leads ⟨.call routine, place.enter, frame :: stack⟩
      (answering (routine.read place.enter) (frame :: stack)))
    {next : Float → (inner : Cursor) → inner.rest.length ≤ place.rest.length → Part inner}
    (hnext : ∀ x inner hle, Leads (resume frame x inner stack) (answering (next x inner hle) stack)) :
    Leads (deepen routine frame place stack)
      (answering (if maxLevel ≤ place.level then .fault .tooDeep
        else (Part.nested (routine.read place.enter)).andThen next) stack) := by
  rw [deepen]
  split
  · exact .refl
  · let part : Part place := .nested (routine.read place.enter)
    have hback : part.stop = frame.back (routine.read place.enter).stop := by
      rw [Frame.back, if_pos hframe]
      rfl
    have hvalue : part.value = (routine.read place.enter).value := rfl
    exact hcall.trans (leads_andThen hvalue hback fun x hle _ => hnext x _ hle)

/-- A sum or product goes on behind one more part as it does from what it comes to. -/
theorem leads_joined {operation? : Token → Option (Float → Float → Except Fault Float)}
    {routine : Routine} {frame : (Float → Except Fault Float) → Frame} {joint : Except Fault Float}
    {place : Cursor} {stack : List Frame} {behind : Float → Part place}
    (h : ∀ x, Leads (goOn operation? routine frame x place stack) (answering (behind x) stack)) :
    Leads (joined operation? routine frame joint place stack)
      (answering (match joint with | .error fault => .fault fault | .ok x => behind x) stack) := by
  cases joint with
  | error fault => exact .refl
  | ok x => exact h x

/-- An operand without a minus sign hands over what its atom is. -/
theorem leads_bare {c : Cursor} (part : Part c) (stack : List Frame) :
    Leads (answering part (.bare :: stack)) (answering part stack) := by
  refine .step ?_ .refl
  rw [answering, answering]
  cases part.value <;> rfl

/-- From a place, the calls of all routines run on to what the routines read, and sums and products go
on to what is read of them. -/
structure Told (c : Cursor) : Prop where
  routine : ∀ routine stack,
    Leads ⟨.call routine, c, stack⟩ (answering (routine.read c) stack)
  productFrom : ∀ x stack,
    Leads (goOn productOperation? .power .product x c stack) (answering (productFrom x c) stack)
  sumFrom : ∀ x stack,
    Leads (goOn sumOperation? .product .sum x c stack) (answering (sumFrom x c) stack)

section Telling

variable {n : Nat} (ih : ∀ place : Cursor, place.rest.length < n → Told place) {c : Cursor}
  (hc : c.rest.length ≤ n)
include ih hc

/-- What stands behind a token is told, being shorter. -/
private theorem told_past {token : Token} {rest : List Token} (h : c.rest = token :: rest) :
    Told (c.past rest) ∧ Told (c.past rest).enter := by
  have hlt : rest.length < n := by
    rw [h, List.length_cons] at hc
    omega
  exact ⟨ih _ hlt, ih _ hlt⟩

private theorem leads_atom (stack : List Frame) :
    Leads ⟨.call .atom, c, stack⟩ (answering (atom c) stack) := by
  refine .step rfl ?_
  rw [atom]
  obtain ⟨tokens, taken, level⟩ := c
  cases tokens with
  | nil => exact .refl
  | cons token rest =>
    cases token with
    | number | operator | closing => exact .refl
    | opening =>
      refine leads_deepen rfl ((told_past ih hc rfl).2.routine .sum (.group :: stack)) ?_
      intro x ⟨behind, taken, level⟩ _
      cases behind with
      | nil => exact .refl
      | cons token behind => cases token <;> exact .refl

private theorem leads_operand (stack : List Frame) :
    Leads ⟨.call .operand, c, stack⟩ (answering (operand c) stack) := by
  have hbare := (leads_atom ih hc (.bare :: stack)).trans (leads_bare (atom c) stack)
  refine .step rfl ?_
  rw [operand]
  obtain ⟨tokens, taken, level⟩ := c
  match tokens with
  | [] | .number _ :: _ | .opening :: _ | .closing :: _ => exact hbare
  | .operator op :: rest =>
    cases op with
    | minus =>
      refine leads_deepen rfl ((told_past ih hc rfl).2.routine .operand (.negated :: stack)) ?_
      exact fun x inner _ => .refl
    | _ => exact hbare

private theorem leads_power (stack : List Frame) :
    Leads ⟨.call .power, c, stack⟩ (answering (power c) stack) := by
  refine .step rfl ((leads_operand ih hc (.base :: stack)).trans ?_)
  rw [power]
  refine leads_andThen rfl rfl fun x hle _ => ?_
  have hplace : (operand c).stop.rest.length ≤ n := Nat.le_trans hle hc
  generalize (operand c).stop = place at hplace ⊢
  obtain ⟨tokens, taken, level⟩ := place
  match tokens with
  | [] | .number _ :: _ | .opening :: _ | .closing :: _ => exact .refl
  | .operator op :: rest =>
    cases op with
    | power =>
      refine leads_deepen rfl ((told_past ih hplace rfl).2.routine .power (.exponent x :: stack)) ?_
      exact fun y inner _ => .refl
    | _ => exact .refl

private theorem leads_productFrom (x : Float) (stack : List Frame) :
    Leads (goOn productOperation? .power .product x c stack) (answering (productFrom x c) stack) := by
  rw [productFrom, goOn]
  obtain ⟨tokens, taken, level⟩ := c
  cases tokens with
  | nil => exact .refl
  | cons token rest =>
    dsimp only
    cases productOperation? token with
    | none => exact .refl
    | some operation =>
      refine .trans ((told_past ih hc rfl).1.routine .power (.product (operation x) :: stack)) ?_
      refine leads_andThen rfl rfl fun y hle _ => ?_
      exact leads_joined fun z => (ih _ (Nat.lt_of_le_of_lt hle hc)).productFrom z stack

private theorem leads_product (stack : List Frame) :
    Leads ⟨.call .product, c, stack⟩ (answering (product c) stack) := by
  refine .step rfl ((leads_power ih hc (.product .ok :: stack)).trans ?_)
  rw [product]
  exact leads_andThen rfl rfl fun x hle _ => leads_productFrom ih (Nat.le_trans hle hc) x stack

private theorem leads_sumFrom (x : Float) (stack : List Frame) :
    Leads (goOn sumOperation? .product .sum x c stack) (answering (sumFrom x c) stack) := by
  rw [sumFrom, goOn]
  obtain ⟨tokens, taken, level⟩ := c
  cases tokens with
  | nil => exact .refl
  | cons token rest =>
    dsimp only
    cases sumOperation? token with
    | none => exact .refl
    | some operation =>
      refine .trans ((told_past ih hc rfl).1.routine .product (.sum (operation x) :: stack)) ?_
      refine leads_andThen rfl rfl fun y hle _ => ?_
      exact leads_joined fun z => (ih _ (Nat.lt_of_le_of_lt hle hc)).sumFrom z stack

private theorem leads_sum (stack : List Frame) :
    Leads ⟨.call .sum, c, stack⟩ (answering (sum c) stack) := by
  refine .step rfl ((leads_product ih hc (.sum .ok :: stack)).trans ?_)
  rw [sum]
  exact leads_andThen rfl rfl fun x hle _ => leads_sumFrom ih (Nat.le_trans hle hc) x stack

end Telling

/-- From every place the moments run on to what the reader gives. -/
theorem told (c : Cursor) : Told c := by
  -- By induction on how many tokens are left: a routine calls others at the same place only if they
  -- read lower parts, and everything else behind a token.
  induction hlength : c.rest.length using Nat.strongRecOn generalizing c with
  | ind n ih =>
    have ih : ∀ place : Cursor, place.rest.length < n → Told place :=
      fun place hlt => ih _ hlt place rfl
    have hc : c.rest.length ≤ n := Nat.le_of_eq hlength
    refine ⟨fun routine stack => ?_, leads_productFrom ih hc, leads_sumFrom ih hc⟩
    cases routine with
    | sum => exact leads_sum ih hc stack
    | product => exact leads_product ih hc stack
    | power => exact leads_power ih hc stack
    | operand => exact leads_operand ih hc stack
    | atom => exact leads_atom ih hc stack

end Moment

end Colloquy.Expression
