import Colloquy.Proofs.Expression.Phrase

/-!
# Steps of the reader

When a part of an expression gives a value and where reading stops then, told part by part: each
statement names what its part takes from the front of the tokens and what it leaves to others. The
faults are left out; a part that gives no value has one.
-/

namespace Colloquy.Expression

namespace Part

variable {start place stop : Cursor} {x y : Float}

/-- A part comes to a value, and reading stops at a place. -/
def Gives (part : Part start) (x : Float) (stop : Cursor) : Prop :=
  part.value = .ok x ∧ part.stop = stop

theorem gives_pure_iff : (pure y : Part start).Gives x stop ↔ x = y ∧ stop = start := by
  simp [Gives, pure, eq_comm]

theorem not_gives_fault (f : Fault) : ¬ (fault f : Part start).Gives x stop :=
  fun h => nomatch h.1

theorem gives_further_iff (h : place.rest.length ≤ start.rest.length) (part : Part place) :
    (further place h part : Part start).Gives x stop ↔ part.Gives x stop :=
  Iff.rfl

theorem gives_nested_iff (part : Part start.enter) :
    part.nested.Gives x stop ↔ ∃ inner, part.Gives x inner ∧ stop = inner.leave := by
  constructor
  · rintro ⟨hvalue, rfl⟩
    exact ⟨part.stop, ⟨hvalue, rfl⟩, rfl⟩
  · rintro ⟨inner, ⟨hvalue, rfl⟩, rfl⟩
    exact ⟨hvalue, rfl⟩

/-- A step behind a part takes up its value at the place where reading stopped. -/
theorem gives_andThen_iff (part : Part start) (next : Float → (place : Cursor) → Part place) :
    (part.andThen fun x place _ => next x place).Gives y stop ↔
      ∃ x place, part.Gives x place ∧ (next x place).Gives y stop := by
  rw [andThen]
  split
  · next fault hfault =>
    constructor
    · intro h
      cases h.1
    · rintro ⟨x, place, ⟨hvalue, -⟩, -⟩
      rw [hfault] at hvalue
      cases hvalue
  · next x hx =>
    constructor
    · exact fun h => ⟨x, part.stop, ⟨hx, rfl⟩, h⟩
    · rintro ⟨x', place, ⟨hvalue, rfl⟩, hnext⟩
      rw [hx] at hvalue
      cases hvalue
      exact hnext

end Part

section Steps

variable {c stop : Cursor} {after : List Token} {x v : Float}

theorem sum_gives_iff :
    (sum c).Gives v stop ↔ ∃ x place, (product c).Gives x place ∧ (sumFrom x place).Gives v stop := by
  rw [sum, Part.gives_andThen_iff]

theorem product_gives_iff :
    (product c).Gives v stop ↔
      ∃ x place, (power c).Gives x place ∧ (productFrom x place).Gives v stop := by
  rw [product, Part.gives_andThen_iff]

private theorem sumOperation?_operator (sign : SumSign) :
    sumOperation? (.operator sign.operator) = some fun x y => .ok (sign.apply x y) := by
  cases sign <;> rfl

private theorem sumOperation?_eq_none {ts : List Token} (h : Category.sum.Ends ts) :
    ∀ token ∈ ts.head?, sumOperation? token = none := by
  intro token htoken
  cases token with
  | operator op => exact absurd htoken (h op (by cases op <;> decide))
  | _ => rfl

/-- A sum that has come to its end is left as it is. -/
theorem sumFrom_gives_iff_of_ends (h : Category.sum.Ends c.rest) :
    (sumFrom x c).Gives v stop ↔ v = x ∧ stop = c := by
  have hnone := sumOperation?_eq_none h
  rw [sumFrom]
  split
  · exact Part.gives_pure_iff
  · next token after hrest =>
    rw [hrest] at hnone
    rw [hnone token rfl]
    exact Part.gives_pure_iff

/-- Behind a sign, a sum takes up one more product. -/
theorem sumFrom_gives_iff_of_sign {sign : SumSign} (h : c.rest = .operator sign.operator :: after) :
    (sumFrom x c).Gives v stop ↔
      ∃ y place, (product (c.past after)).Gives y place ∧
        (sumFrom (sign.apply x y) place).Gives v stop := by
  rw [sumFrom]
  split
  · next hrest => cases h.symm.trans hrest
  · next hrest =>
    cases h.symm.trans hrest
    rw [sumOperation?_operator]
    dsimp only
    rw [Part.gives_further_iff, Part.gives_andThen_iff]

private theorem productOperation?_operator (sign : ProductSign) :
    ∃ operation, productOperation? (.operator sign.operator) = some operation ∧
      ∀ x y z, operation x y = .ok z ↔ sign.Admits y ∧ z = sign.apply x y := by
  have hdivided : ∀ (f : Float → Float → Float) x y z,
      divided f x y = .ok z ↔ (y == 0) = false ∧ z = f x y := by
    intro f x y z
    rw [divided]
    cases y == 0 <;> simp [eq_comm]
  cases sign with
  | times => exact ⟨_, rfl, fun x y z => by simp [ProductSign.Admits, ProductSign.apply, eq_comm]⟩
  | dividedBy => exact ⟨_, rfl, hdivided (· / ·)⟩
  | modulo => exact ⟨_, rfl, hdivided Decimal.remainder⟩

private theorem productOperation?_eq_none {ts : List Token} (h : Category.product.Ends ts) :
    ∀ token ∈ ts.head?, productOperation? token = none := by
  intro token htoken
  cases token with
  | operator op =>
    match op with
    | .plus | .minus | .power => rfl
    | .times | .over | .modulo => exact absurd htoken (h _ (by decide))
  | _ => rfl

/-- A product that has come to its end is left as it is. -/
theorem productFrom_gives_iff_of_ends (h : Category.product.Ends c.rest) :
    (productFrom x c).Gives v stop ↔ v = x ∧ stop = c := by
  have hnone := productOperation?_eq_none h
  rw [productFrom]
  split
  · exact Part.gives_pure_iff
  · next token after hrest =>
    rw [hrest] at hnone
    rw [hnone token rfl]
    exact Part.gives_pure_iff

/-- Behind a sign, a product takes up one more power, if the sign makes anything of it. -/
theorem productFrom_gives_iff_of_sign {sign : ProductSign}
    (h : c.rest = .operator sign.operator :: after) :
    (productFrom x c).Gives v stop ↔
      ∃ y place, (power (c.past after)).Gives y place ∧ sign.Admits y ∧
        (productFrom (sign.apply x y) place).Gives v stop := by
  obtain ⟨operation, hoperation, happly⟩ := productOperation?_operator sign
  rw [productFrom]
  split
  · next hrest => cases h.symm.trans hrest
  · next hrest =>
    cases h.symm.trans hrest
    rw [hoperation]
    dsimp only
    rw [Part.gives_further_iff, Part.gives_andThen_iff]
    refine exists₂_congr fun y place => and_congr_right' ?_
    cases hz : operation x y with
    | error fault =>
      have hnot : ¬ sign.Admits y := by
        intro hadmits
        cases hz.symm.trans ((happly x y _).mpr ⟨hadmits, rfl⟩)
      simp [Part.not_gives_fault, hnot]
    | ok z =>
      obtain ⟨hadmits, rfl⟩ := (happly x y z).mp hz
      simp [hadmits]

/-- An operand is a power by itself, unless the sign of power follows; then it is raised to the power
that stands one level deeper. -/
theorem power_gives_iff :
    (power c).Gives v stop ↔
      ∃ x place, (operand c).Gives x place ∧
        (Category.power.Ends place.rest ∧ v = x ∧ stop = place ∨
          ∃ after y inner, place.rest = .operator .power :: after ∧ place.level < maxLevel ∧
            (power (place.past after).enter).Gives y inner ∧ v = Float.pow x y ∧
            stop = inner.leave) := by
  rw [power, Part.gives_andThen_iff]
  refine exists₂_congr fun x place => and_congr_right' ?_
  split
  · next after hrest =>
    have hnot : ¬ Category.power.Ends place.rest := hrest ▸ Category.not_power_ends
    rw [Part.gives_further_iff]
    split
    · next hlevel => simp [Part.not_gives_fault, hnot, Nat.not_lt.mpr hlevel]
    · next hlevel =>
      rw [Part.gives_andThen_iff]
      simp only [Part.gives_pure_iff, Part.gives_nested_iff]
      constructor
      · rintro ⟨y, _, ⟨inner, hinner, rfl⟩, rfl, rfl⟩
        exact .inr ⟨after, y, inner, hrest, Nat.lt_of_not_le hlevel, hinner, rfl, rfl⟩
      · rintro (⟨hends, -⟩ | ⟨after', y, inner, hrest', -, hinner, rfl, rfl⟩)
        · exact absurd hends hnot
        · cases hrest.symm.trans hrest'
          exact ⟨y, _, ⟨inner, hinner, rfl⟩, rfl, rfl⟩
  · next hrest =>
    have hnot : ∀ after, place.rest ≠ .operator .power :: after := fun after h => hrest after h
    have hends : Category.power.Ends place.rest := Category.power_ends_iff.mpr hnot
    simp [Part.gives_pure_iff, hends, hnot]

/-- Behind a minus sign stands an operand one level deeper. -/
theorem operand_gives_iff_of_minus (h : c.rest = .operator .minus :: after) :
    (operand c).Gives v stop ↔
      c.level < maxLevel ∧ ∃ x inner, (operand (c.past after).enter).Gives x inner ∧ v = -x ∧
        stop = inner.leave := by
  rw [operand]
  split
  · next hrest =>
    cases h.symm.trans hrest
    rw [Part.gives_further_iff]
    split
    · next hlevel => simp [Part.not_gives_fault, Nat.not_lt.mpr hlevel]
    · next hlevel =>
      rw [Part.gives_andThen_iff]
      simp only [Part.gives_pure_iff, Part.gives_nested_iff]
      constructor
      · rintro ⟨x, _, ⟨inner, hinner, rfl⟩, rfl, rfl⟩
        exact ⟨Nat.lt_of_not_le hlevel, x, inner, hinner, rfl, rfl⟩
      · rintro ⟨-, x, inner, hinner, rfl, rfl⟩
        exact ⟨x, _, ⟨inner, hinner, rfl⟩, rfl, rfl⟩
  · next hnot => exact absurd h (hnot after)

/-- An operand that begins with no minus sign is an atom. -/
theorem operand_gives_iff_of_ne (h : ∀ after, c.rest ≠ .operator .minus :: after) :
    (operand c).Gives v stop ↔ (atom c).Gives v stop := by
  rw [operand]
  split
  · next hrest => exact absurd hrest (h _)
  · rfl

/-- An atom is a number or, one level deeper, a sum between parentheses. -/
theorem atom_gives_iff :
    (atom c).Gives v stop ↔
      (∃ after, c.rest = .number v :: after ∧ stop = c.past after) ∨
        ∃ after inner rest, c.rest = .opening :: after ∧ c.level < maxLevel ∧
          (sum (c.past after).enter).Gives v inner ∧ inner.rest = .closing :: rest ∧
          stop = inner.leave.past rest := by
  rw [atom]
  split
  · next hrest => simp [Part.not_gives_fault, hrest]
  · next token after hrest =>
    rw [Part.gives_further_iff]
    cases token with
    | number x =>
      rw [Part.gives_pure_iff]
      constructor
      · rintro ⟨rfl, rfl⟩
        exact .inl ⟨after, hrest, rfl⟩
      · rintro (⟨after', hnumber, rfl⟩ | ⟨after', inner, rest, hopening, -⟩)
        · cases hrest.symm.trans hnumber
          exact ⟨rfl, rfl⟩
        · cases hrest.symm.trans hopening
    | operator op => simp [Part.not_gives_fault, hrest]
    | closing => simp [Part.not_gives_fault, hrest]
    | opening =>
      dsimp only
      split
      · next hlevel => simp [Part.not_gives_fault, hrest, Nat.not_lt.mpr hlevel]
      next hlevel =>
      rw [Part.gives_andThen_iff]
      constructor
      · rintro ⟨x, _, hsum, hgives⟩
        obtain ⟨inner, hinner, rfl⟩ := (Part.gives_nested_iff _).mp hsum
        split at hgives
        · exact absurd hgives (Part.not_gives_fault _)
        · next rest hclosing =>
          obtain ⟨rfl, rfl⟩ := Part.gives_pure_iff.mp hgives
          exact .inr ⟨after, inner, rest, hrest, Nat.lt_of_not_le hlevel, hinner, hclosing, rfl⟩
        · exact absurd hgives (Part.not_gives_fault _)
      · rintro (⟨after', hnumber, -⟩ | ⟨after', inner, rest, hopening, -, hinner, hclosing, rfl⟩)
        · cases hrest.symm.trans hnumber
        cases hrest.symm.trans hopening
        refine ⟨v, inner.leave, (Part.gives_nested_iff _).mpr ⟨inner, hinner, rfl⟩, ?_⟩
        have hleave : inner.leave.rest = .closing :: rest := hclosing
        split
        · next hnone => cases hleave.symm.trans hnone
        · next hrest =>
          cases hleave.symm.trans hrest
          exact Part.gives_pure_iff.mpr ⟨rfl, rfl⟩
        · next hnot hrest =>
          cases hleave.symm.trans hrest
          exact (hnot rfl).elim

end Steps

end Colloquy.Expression
