import Colloquy.Expression.Evaluation

/-!
# Phrases

The grammar of expressions as trees, without a reader. A phrase is a derivation of one part of
speech: it says which tokens it is made of, what it comes to, how deep its parts are nested and
whether every divisor in it is other than zero. A list of tokens has one phrase at most, also in
front of tokens with which the phrase could not go on.
-/

namespace Colloquy.Expression

/-- The parts of speech. Behind the first product of a sum, and behind the first power of a product,
any number of others may follow. -/
inductive Category where
  | sum
  | sumRest
  | product
  | productRest
  | power
  | operand
  | atom

/-- A sign between two products. -/
inductive SumSign where
  | plus
  | minus

/-- A sign between two powers. -/
inductive ProductSign where
  | times
  | dividedBy
  | modulo

namespace SumSign

/-- The operator that a sign is. -/
def operator : SumSign → Operator
  | plus => .plus
  | minus => .minus

/-- What a sign makes of two numbers. -/
def apply : SumSign → Float → Float → Float
  | plus, x, y => x + y
  | minus, x, y => x - y

theorem operator_inj {sign sign' : SumSign} : sign.operator = sign'.operator ↔ sign = sign' := by
  cases sign <;> cases sign' <;> simp [operator]

end SumSign

namespace ProductSign

/-- The operator that a sign is. -/
def operator : ProductSign → Operator
  | times => .times
  | dividedBy => .over
  | modulo => .modulo

/-- What a sign makes of two numbers. -/
def apply : ProductSign → Float → Float → Float
  | times, x, y => x * y
  | dividedBy, x, y => x / y
  | modulo, x, y => Decimal.remainder x y

/-- Whether a sign makes anything of two numbers: the second one of a division is not zero. -/
def Admits : ProductSign → Float → Prop
  | times, _ => True
  | dividedBy, y | modulo, y => (y == 0) = false

theorem operator_inj {sign sign' : ProductSign} :
    sign.operator = sign'.operator ↔ sign = sign' := by
  cases sign <;> cases sign' <;> simp [operator]

end ProductSign

/-- A derivation of a part of speech. -/
inductive Phrase : Category → Type where
  | sum (first : Phrase .product) (rest : Phrase .sumRest) : Phrase .sum
  | noTerm : Phrase .sumRest
  | term (sign : SumSign) (next : Phrase .product) (rest : Phrase .sumRest) : Phrase .sumRest
  | product (first : Phrase .power) (rest : Phrase .productRest) : Phrase .product
  | noFactor : Phrase .productRest
  | factor (sign : ProductSign) (next : Phrase .power) (rest : Phrase .productRest) :
    Phrase .productRest
  | unraised (base : Phrase .operand) : Phrase .power
  | raised (base : Phrase .operand) (exponent : Phrase .power) : Phrase .power
  | negated (operand : Phrase .operand) : Phrase .operand
  | bare (atom : Phrase .atom) : Phrase .operand
  | number (x : Float) : Phrase .atom
  | group (inner : Phrase .sum) : Phrase .atom

/-- What a phrase comes to: a number, or what the rest of a sum or product makes of the number in
front of it. -/
@[reducible]
def Category.Meaning : Category → Type
  | .sumRest | .productRest => Float → Float
  | _ => Float

namespace Phrase

/-- The tokens of a phrase. -/
@[simp]
def tokens {k : Category} : Phrase k → List Token
  | sum first rest => first.tokens ++ rest.tokens
  | noTerm => []
  | term sign next rest => .operator sign.operator :: (next.tokens ++ rest.tokens)
  | product first rest => first.tokens ++ rest.tokens
  | noFactor => []
  | factor sign next rest => .operator sign.operator :: (next.tokens ++ rest.tokens)
  | unraised base => base.tokens
  | raised base exponent => base.tokens ++ .operator .power :: exponent.tokens
  | negated operand => .operator .minus :: operand.tokens
  | bare atom => atom.tokens
  | number x => [.number x]
  | group inner => .opening :: (inner.tokens ++ [.closing])

/-- What a phrase comes to. The rest of a sum or product takes up one number after another, so that
signs of one rank apply from left to right; powers apply from right to left. -/
@[simp]
def value {k : Category} : Phrase k → k.Meaning
  | sum first rest => rest.value first.value
  | noTerm => fun x => x
  | term sign next rest => fun x => rest.value (sign.apply x next.value)
  | product first rest => rest.value first.value
  | noFactor => fun x => x
  | factor sign next rest => fun x => rest.value (sign.apply x next.value)
  | unraised base => base.value
  | raised base exponent => Float.pow base.value exponent.value
  | negated operand => -operand.value
  | bare atom => atom.value
  | number x => x
  | group inner => inner.value

/-- How deep the deepest part of a phrase is nested: in parentheses, behind minus signs and on the
right of powers. -/
@[simp]
def depth {k : Category} : Phrase k → Nat
  | sum first rest => max first.depth rest.depth
  | noTerm => 0
  | term _ next rest => max next.depth rest.depth
  | product first rest => max first.depth rest.depth
  | noFactor => 0
  | factor _ next rest => max next.depth rest.depth
  | unraised base => base.depth
  | raised base exponent => max base.depth (exponent.depth + 1)
  | negated operand => operand.depth + 1
  | bare atom => atom.depth
  | number _ => 0
  | group inner => inner.depth + 1

/-- No divisor in a phrase is zero. -/
@[simp]
def Defined {k : Category} : Phrase k → Prop
  | sum first rest => first.Defined ∧ rest.Defined
  | noTerm => True
  | term _ next rest => next.Defined ∧ rest.Defined
  | product first rest => first.Defined ∧ rest.Defined
  | noFactor => True
  | factor sign next rest => next.Defined ∧ sign.Admits next.value ∧ rest.Defined
  | unraised base => base.Defined
  | raised base exponent => base.Defined ∧ exponent.Defined
  | negated operand => operand.Defined
  | bare atom => atom.Defined
  | number _ => True
  | group inner => inner.Defined

end Phrase

/-- The operators with which a phrase would go on. -/
def Category.joins : Category → List Operator
  | .sum | .sumRest => [.plus, .minus, .times, .over, .modulo, .power]
  | .product | .productRest => [.times, .over, .modulo, .power]
  | .power => [.power]
  | .operand | .atom => []

/-- A phrase ends in front of tokens when it could not go on with the first of them. -/
def Category.Ends (k : Category) (ts : List Token) : Prop :=
  ∀ op ∈ k.joins, ts.head? ≠ some (.operator op)

namespace Category

variable {ts : List Token}

theorem ends_nil (k : Category) : k.Ends [] :=
  fun _ _ h => nomatch h

/-- Every phrase ends in front of a closing parenthesis. -/
theorem ends_closing (k : Category) : k.Ends (.closing :: ts) :=
  fun _ _ h => nomatch h

/-- Where a sum ends, a product does. -/
theorem product_ends_of_sum (h : sum.Ends ts) : product.Ends ts :=
  fun op hop => h op (by revert hop; cases op <;> decide)

/-- Where a product ends, a power does. -/
theorem power_ends_of_product (h : product.Ends ts) : power.Ends ts :=
  fun op hop => h op (by revert hop; cases op <;> decide)

theorem product_ends_sumSign (sign : SumSign) : product.Ends (.operator sign.operator :: ts) := by
  intro op hop h
  cases Option.some.inj h
  cases sign <;> exact absurd hop (by decide)

theorem power_ends_productSign (sign : ProductSign) :
    power.Ends (.operator sign.operator :: ts) := by
  intro op hop h
  cases Option.some.inj h
  cases sign <;> exact absurd hop (by decide)

theorem operand_ends : operand.Ends ts :=
  fun _ hop => nomatch hop

/-- A power ends where the sign of power does not follow. -/
theorem power_ends_iff : power.Ends ts ↔ ∀ after, ts ≠ .operator .power :: after := by
  cases ts with
  | nil => simp [ends_nil]
  | cons token after => simp [Ends, joins]

/-- Where a power ends but a product does not, there is a sign of a product. -/
theorem product_ends_or (h : power.Ends ts) :
    product.Ends ts ∨ ∃ (sign : ProductSign) (after : List Token),
      ts = .operator sign.operator :: after := by
  rcases ts with _ | ⟨_ | op | _ | _, after⟩
  case cons.operator =>
    match op with
    | .times => exact .inr ⟨.times, after, rfl⟩
    | .over => exact .inr ⟨.dividedBy, after, rfl⟩
    | .modulo => exact .inr ⟨.modulo, after, rfl⟩
    | .power => exact absurd rfl (power_ends_iff.mp h after)
    | .plus | .minus => exact .inl (by simp [Ends, joins])
  all_goals exact .inl fun _ _ h => nomatch h

/-- Where a product ends but a sum does not, there is a sign of a sum. -/
theorem sum_ends_or (h : product.Ends ts) :
    sum.Ends ts ∨ ∃ (sign : SumSign) (after : List Token),
      ts = .operator sign.operator :: after := by
  rcases ts with _ | ⟨_ | op | _ | _, after⟩
  case cons.operator =>
    match op with
    | .plus => exact .inr ⟨.plus, after, rfl⟩
    | .minus => exact .inr ⟨.minus, after, rfl⟩
    | .times | .over | .modulo | .power => exact absurd rfl (h _ (by decide))
  all_goals exact .inl fun _ _ h => nomatch h

theorem not_sum_ends (sign : SumSign) : ¬ sum.Ends (.operator sign.operator :: ts) :=
  fun h => h sign.operator (by cases sign <;> decide) rfl

theorem not_product_ends (sign : ProductSign) : ¬ product.Ends (.operator sign.operator :: ts) :=
  fun h => h sign.operator (by cases sign <;> decide) rfl

theorem not_power_ends : ¬ power.Ends (.operator .power :: ts) :=
  fun h => power_ends_iff.mp h ts rfl

end Category

namespace Phrase

variable {k : Category} {ts ts' : List Token}

/-- The first product of a sum ends where the rest of the sum begins. -/
theorem product_ends_rest (rest : Phrase .sumRest) (h : Category.sum.Ends ts) :
    Category.product.Ends (rest.tokens ++ ts) := by
  cases rest with
  | noTerm => exact Category.product_ends_of_sum h
  | term sign next rest => exact Category.product_ends_sumSign sign

/-- The first power of a product ends where the rest of the product begins. -/
theorem power_ends_rest (rest : Phrase .productRest) (h : Category.product.Ends ts) :
    Category.power.Ends (rest.tokens ++ ts) := by
  cases rest with
  | noFactor => exact Category.power_ends_of_product h
  | factor sign next rest => exact Category.power_ends_productSign sign

/-- An atom begins with a number or a parenthesis, not with a sign. -/
theorem tokens_atom_ne (atom : Phrase .atom) (op : Operator) :
    atom.tokens ++ ts ≠ .operator op :: ts' := by
  cases atom <;> exact fun h => nomatch (List.cons.inj h).1

/-- No other phrase of its part of speech has the same tokens in front of it: where both end, they
are one phrase and the same is left behind them. -/
def Sole (p : Phrase k) : Prop :=
  ∀ (q : Phrase k) (ts ts' : List Token), p.tokens ++ ts = q.tokens ++ ts' →
    k.Ends ts → k.Ends ts' → p = q ∧ ts = ts'

/-- Two phrases one behind the other are parted in one way, if the first one ends where the second
one begins. -/
theorem Sole.both {k' : Category} {first first' : Phrase k} {rest rest' : Phrase k'}
    (hfirst : first.Sole) (hrest : rest.Sole)
    (h : first.tokens ++ rest.tokens ++ ts = first'.tokens ++ rest'.tokens ++ ts')
    (hnext : k.Ends (rest.tokens ++ ts)) (hnext' : k.Ends (rest'.tokens ++ ts'))
    (hends : k'.Ends ts) (hends' : k'.Ends ts') : first = first' ∧ rest = rest' ∧ ts = ts' := by
  rw [List.append_assoc, List.append_assoc] at h
  obtain ⟨rfl, hbehind⟩ := hfirst first' _ _ h hnext hnext'
  obtain ⟨rfl, hafter⟩ := hrest rest' _ _ hbehind hends hends'
  exact ⟨rfl, rfl, hafter⟩

/-- Tokens begin with one phrase at most that ends where it could not go on. -/
theorem sole (p : Phrase k) : p.Sole := by
  -- By induction on the phrase; the first tokens of each part tell how the other one is made.
  induction p with
  | sum first rest ihFirst ihRest =>
    intro q ts ts' h hends hends'
    cases q with | sum first' rest' =>
    obtain ⟨rfl, rfl, hafter⟩ := ihFirst.both ihRest h (product_ends_rest rest hends)
      (product_ends_rest rest' hends') hends hends'
    exact ⟨rfl, hafter⟩
  | noTerm =>
    intro q ts ts' h hends hends'
    cases q with
    | noTerm => exact ⟨rfl, h⟩
    | term sign next rest =>
      obtain rfl : ts = _ := h
      exact absurd hends (Category.not_sum_ends sign)
  | term sign next rest ihNext ihRest =>
    intro q ts ts' h hends hends'
    cases q with
    | noTerm =>
      obtain rfl : _ = ts' := h
      exact absurd hends' (Category.not_sum_ends sign)
    | term sign' next' rest' =>
      obtain ⟨hsign, hparts⟩ := List.cons.inj h
      obtain rfl := SumSign.operator_inj.mp (Token.operator.inj hsign)
      obtain ⟨rfl, rfl, hafter⟩ := ihNext.both ihRest hparts (product_ends_rest rest hends)
        (product_ends_rest rest' hends') hends hends'
      exact ⟨rfl, hafter⟩
  | product first rest ihFirst ihRest =>
    intro q ts ts' h hends hends'
    cases q with | product first' rest' =>
    obtain ⟨rfl, rfl, hafter⟩ := ihFirst.both ihRest h (power_ends_rest rest hends)
      (power_ends_rest rest' hends') hends hends'
    exact ⟨rfl, hafter⟩
  | noFactor =>
    intro q ts ts' h hends hends'
    cases q with
    | noFactor => exact ⟨rfl, h⟩
    | factor sign next rest =>
      obtain rfl : ts = _ := h
      exact absurd hends (Category.not_product_ends sign)
  | factor sign next rest ihNext ihRest =>
    intro q ts ts' h hends hends'
    cases q with
    | noFactor =>
      obtain rfl : _ = ts' := h
      exact absurd hends' (Category.not_product_ends sign)
    | factor sign' next' rest' =>
      obtain ⟨hsign, hparts⟩ := List.cons.inj h
      obtain rfl := ProductSign.operator_inj.mp (Token.operator.inj hsign)
      obtain ⟨rfl, rfl, hafter⟩ := ihNext.both ihRest hparts (power_ends_rest rest hends)
        (power_ends_rest rest' hends') hends hends'
      exact ⟨rfl, hafter⟩
  | unraised base ih =>
    intro q ts ts' h hends hends'
    cases q with
    | unraised base' =>
      obtain ⟨rfl, hafter⟩ := ih base' _ _ h Category.operand_ends Category.operand_ends
      exact ⟨rfl, hafter⟩
    | raised base' exponent =>
      rw [tokens, tokens, List.append_assoc] at h
      obtain ⟨-, rfl⟩ := ih base' _ _ h Category.operand_ends Category.operand_ends
      exact absurd hends Category.not_power_ends
  | raised base exponent ihBase ihExponent =>
    intro q ts ts' h hends hends'
    rw [tokens, List.append_assoc] at h
    cases q with
    | unraised base' =>
      obtain ⟨-, rfl⟩ := ihBase base' _ _ h Category.operand_ends Category.operand_ends
      exact absurd hends' Category.not_power_ends
    | raised base' exponent' =>
      rw [tokens, List.append_assoc] at h
      obtain ⟨rfl, hpower⟩ := ihBase base' _ _ h Category.operand_ends Category.operand_ends
      obtain ⟨rfl, hafter⟩ := ihExponent exponent' _ _ (List.cons.inj hpower).2 hends hends'
      exact ⟨rfl, hafter⟩
  | negated operand ih =>
    intro q ts ts' h hends hends'
    cases q with
    | negated operand' =>
      obtain ⟨rfl, hafter⟩ := ih operand' _ _ (List.cons.inj h).2 hends hends'
      exact ⟨rfl, hafter⟩
    | bare atom => exact absurd h.symm (tokens_atom_ne atom .minus)
  | bare atom ih =>
    intro q ts ts' h hends hends'
    cases q with
    | negated operand => exact absurd h (tokens_atom_ne atom .minus)
    | bare atom' =>
      obtain ⟨rfl, hafter⟩ := ih atom' _ _ h hends hends'
      exact ⟨rfl, hafter⟩
  | number x =>
    intro q ts ts' h hends hends'
    cases q with
    | number y =>
      obtain ⟨hnumber, hafter⟩ := List.cons.inj h
      exact ⟨congrArg number (Token.number.inj hnumber), hafter⟩
    | group inner => exact nomatch (List.cons.inj h).1
  | group inner ih =>
    intro q ts ts' h hends hends'
    cases q with
    | number x => exact nomatch (List.cons.inj h).1
    | group inner' =>
      simp only [tokens, List.cons_append, List.append_assoc, List.cons.injEq, true_and] at h
      obtain ⟨rfl, hclosing⟩ :=
        ih inner' _ _ h (Category.ends_closing _) (Category.ends_closing _)
      exact ⟨rfl, (List.cons.inj hclosing).2⟩

/-- Only what may follow the first part of a sum or product can be empty. -/
theorem rest_of_tokens_eq_nil (p : Phrase k) (h : p.tokens = []) :
    k = .sumRest ∨ k = .productRest := by
  induction p with
  | noTerm | term => exact .inl rfl
  | noFactor | factor => exact .inr rfl
  | sum first rest ih | product first rest ih | raised first rest ih =>
    obtain h | h := ih (List.append_eq_nil_iff.mp h).1 <;> cases h
  | unraised part ih | bare part ih => obtain h | h := ih h <;> cases h
  | negated | number | group => cases h

/-- The grammar is unambiguous: phrases of the same tokens are the same. -/
theorem tokens_injective (p q : Phrase k) (h : p.tokens = q.tokens) : p = q :=
  (p.sole q [] [] (congrArg (· ++ []) h) k.ends_nil k.ends_nil).1

end Phrase

end Colloquy.Expression
