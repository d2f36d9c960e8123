import Colloquy.Proofs.Expression.Steps

/-!
# What is read is a phrase

Each part of the reader told of the grammar: it gives a value exactly when a phrase of its part of
speech stands at the front of the tokens, is nested no deeper than the levels that are left, divides
by no zero and ends where it could not go on. The value is that of the phrase, and reading stops
behind it.
-/

namespace Colloquy.Expression

/-- Tokens lie between two places of one level. -/
structure Covers (ts : List Token) (start stop : Cursor) : Prop where
  /-- They are what is left behind the first place, up to the second. -/
  rest : start.rest = ts ++ stop.rest
  /-- They are taken on the way. -/
  taken : stop.taken = start.taken + ts.length
  /-- The places have one level. -/
  level : stop.level = start.level

section Covers

variable {c stop : Cursor} {ts us : List Token} {token : Token} {after : List Token}

theorem covers_nil_iff : Covers [] c stop ↔ stop = c := by
  constructor
  · rintro ⟨hrest, htaken, hlevel⟩
    cases c
    cases stop
    simp_all
  · rintro rfl
    exact ⟨rfl, rfl, rfl⟩

theorem covers_append_iff :
    Covers (ts ++ us) c stop ↔ ∃ place, Covers ts c place ∧ Covers us place stop := by
  constructor
  · rintro ⟨hrest, htaken, hlevel⟩
    rw [List.append_assoc] at hrest
    rw [List.length_append] at htaken
    exact ⟨⟨us ++ stop.rest, c.taken + ts.length, c.level⟩, ⟨hrest, rfl, rfl⟩, rfl,
      htaken.trans (Nat.add_assoc ..).symm, hlevel⟩
  · rintro ⟨place, hts, hus⟩
    refine ⟨?_, ?_, hus.level.trans hts.level⟩
    · rw [hts.rest, hus.rest, List.append_assoc]
    · rw [hus.taken, hts.taken, List.length_append, Nat.add_assoc]

theorem covers_cons_iff :
    Covers (token :: ts) c stop ↔ ∃ after, c.rest = token :: after ∧ Covers ts (c.past after) stop := by
  constructor
  · rintro ⟨hrest, htaken, hlevel⟩
    refine ⟨ts ++ stop.rest, hrest, rfl, ?_, hlevel⟩
    simp only [htaken, List.length_cons, Cursor.past]
    omega
  · rintro ⟨after, hrest, hts⟩
    refine ⟨?_, ?_, hts.level⟩
    · rw [hrest, List.cons_append, ← hts.rest]
      rfl
    · simp only [hts.taken, List.length_cons, Cursor.past]
      omega

/-- Between two places lies the same one level deeper. -/
theorem covers_enter_iff :
    (∃ inner, Covers ts c.enter inner ∧ stop = inner.leave) ↔ Covers ts c stop := by
  constructor
  · rintro ⟨inner, ⟨hrest, htaken, hlevel⟩, rfl⟩
    exact ⟨hrest, htaken, congrArg (· - 1) hlevel⟩
  · rintro ⟨hrest, htaken, hlevel⟩
    exact ⟨stop.enter, ⟨hrest, htaken, congrArg (· + 1) hlevel⟩, rfl⟩

end Covers

namespace Phrase

/-- A phrase stands between two places and can be read there: it is nested no deeper than the levels
that are left, and no divisor in it is zero. -/
structure Spans {k : Category} (p : Phrase k) (start stop : Cursor) : Prop where
  /-- Its tokens lie between the places. -/
  covers : Covers p.tokens start stop
  /-- No part of it is too deep. -/
  depth_le : start.level + p.depth ≤ maxLevel
  /-- No divisor is zero. -/
  defined : p.Defined

variable {k k' : Category} {c stop : Cursor}

theorem spans_iff {p : Phrase k} :
    p.Spans c stop ↔ Covers p.tokens c stop ∧ c.level + p.depth ≤ maxLevel ∧ p.Defined :=
  ⟨fun h => ⟨h.covers, h.depth_le, h.defined⟩, fun h => ⟨h.1, h.2.1, h.2.2⟩⟩

/-- Two phrases one behind the other. -/
private theorem spans_both_iff {p : Phrase k} {q : Phrase k'} :
    (∃ place, p.Spans c place ∧ q.Spans place stop) ↔
      Covers (p.tokens ++ q.tokens) c stop ∧ c.level + max p.depth q.depth ≤ maxLevel ∧
        p.Defined ∧ q.Defined := by
  rw [covers_append_iff]
  constructor
  · rintro ⟨place, hp, hq⟩
    have hlevel := hp.covers.level
    have hpDepth := hp.depth_le
    have hqDepth := hq.depth_le
    exact ⟨⟨place, hp.covers, hq.covers⟩, by omega, hp.defined, hq.defined⟩
  · rintro ⟨⟨place, hp, hq⟩, hdepth, hpDefined, hqDefined⟩
    have hlevel := hp.level
    exact ⟨place, ⟨hp, by omega, hpDefined⟩, hq, by omega, hqDefined⟩

/-- A phrase one level deeper. -/
private theorem spans_deeper_iff {p : Phrase k} :
    (∃ inner, p.Spans c.enter inner ∧ stop = inner.leave) ↔
      Covers p.tokens c stop ∧ c.level + (p.depth + 1) ≤ maxLevel ∧ p.Defined := by
  have hlevel : c.enter.level = c.level + 1 := rfl
  rw [← covers_enter_iff]
  constructor
  · rintro ⟨inner, hp, rfl⟩
    have hdepth := hp.depth_le
    exact ⟨⟨inner, hp.covers, rfl⟩, by omega, hp.defined⟩
  · rintro ⟨⟨inner, hp, rfl⟩, hdepth, hdefined⟩
    exact ⟨inner, ⟨hp, by omega, hdefined⟩, rfl⟩

theorem spans_sum_iff {first : Phrase .product} {rest : Phrase .sumRest} :
    (sum first rest).Spans c stop ↔ ∃ place, first.Spans c place ∧ rest.Spans place stop := by
  rw [spans_both_iff, spans_iff, tokens, depth, Defined]

theorem spans_noTerm_iff : noTerm.Spans c stop ↔ stop = c ∧ c.level ≤ maxLevel := by
  rw [spans_iff, tokens, covers_nil_iff, depth, Defined, Nat.add_zero, and_true]

theorem spans_term_iff {sign : SumSign} {next : Phrase .product} {rest : Phrase .sumRest} :
    (term sign next rest).Spans c stop ↔
      ∃ after, c.rest = .operator sign.operator :: after ∧
        ∃ place, next.Spans (c.past after) place ∧ rest.Spans place stop := by
  simp only [spans_both_iff]
  rw [spans_iff, tokens, covers_cons_iff, depth, Defined]
  constructor
  · rintro ⟨⟨after, hsign, hcovers⟩, hfits⟩
    exact ⟨after, hsign, hcovers, hfits⟩
  · rintro ⟨after, hsign, hcovers, hfits⟩
    exact ⟨⟨after, hsign, hcovers⟩, hfits⟩

theorem spans_product_iff {first : Phrase .power} {rest : Phrase .productRest} :
    (product first rest).Spans c stop ↔ ∃ place, first.Spans c place ∧ rest.Spans place stop := by
  rw [spans_both_iff, spans_iff, tokens, depth, Defined]

theorem spans_noFactor_iff : noFactor.Spans c stop ↔ stop = c ∧ c.level ≤ maxLevel := by
  rw [spans_iff, tokens, covers_nil_iff, depth, Defined, Nat.add_zero, and_true]

theorem spans_factor_iff {sign : ProductSign} {next : Phrase .power} {rest : Phrase .productRest} :
    (factor sign next rest).Spans c stop ↔
      ∃ after, c.rest = .operator sign.operator :: after ∧ sign.Admits next.value ∧
        ∃ place, next.Spans (c.past after) place ∧ rest.Spans place stop := by
  simp only [spans_both_iff]
  rw [spans_iff, tokens, covers_cons_iff, depth, Defined]
  constructor
  · rintro ⟨⟨after, hsign, hcovers⟩, hdepth, hnext, hadmits, hrest⟩
    exact ⟨after, hsign, hadmits, hcovers, hdepth, hnext, hrest⟩
  · rintro ⟨after, hsign, hadmits, hcovers, hdepth, hnext, hrest⟩
    exact ⟨⟨after, hsign, hcovers⟩, hdepth, hnext, hadmits, hrest⟩

theorem spans_unraised_iff {base : Phrase .operand} :
    (unraised base).Spans c stop ↔ base.Spans c stop := by
  rw [spans_iff, spans_iff, tokens, depth, Defined]

theorem spans_raised_iff {base : Phrase .operand} {exponent : Phrase .power} :
    (raised base exponent).Spans c stop ↔
      ∃ place, base.Spans c place ∧ ∃ after, place.rest = .operator .power :: after ∧
        ∃ inner, exponent.Spans (place.past after).enter inner ∧ stop = inner.leave := by
  simp only [spans_deeper_iff]
  rw [spans_iff, tokens, covers_append_iff, depth, Defined]
  constructor
  · rintro ⟨⟨place, hbase, hcovers⟩, hdepth, hbaseDefined, hexponentDefined⟩
    obtain ⟨after, hpower, hexponent⟩ := covers_cons_iff.mp hcovers
    have hlevel : (place.past after).level = c.level := hbase.level
    exact ⟨place, ⟨hbase, by omega, hbaseDefined⟩, after, hpower, hexponent, by omega,
      hexponentDefined⟩
  · rintro ⟨place, hbase, after, hpower, hexponent, hdepth, hdefined⟩
    have hlevel : (place.past after).level = c.level := hbase.covers.level
    have hbaseDepth := hbase.depth_le
    exact ⟨⟨place, hbase.covers, covers_cons_iff.mpr ⟨after, hpower, hexponent⟩⟩, by omega,
      hbase.defined, hdefined⟩

theorem spans_negated_iff {operand : Phrase .operand} :
    (negated operand).Spans c stop ↔
      ∃ after, c.rest = .operator .minus :: after ∧
        ∃ inner, operand.Spans (c.past after).enter inner ∧ stop = inner.leave := by
  simp only [spans_deeper_iff]
  rw [spans_iff, tokens, covers_cons_iff, depth, Defined]
  constructor
  · rintro ⟨⟨after, hminus, hcovers⟩, hfits⟩
    exact ⟨after, hminus, hcovers, hfits⟩
  · rintro ⟨after, hminus, hcovers, hfits⟩
    exact ⟨⟨after, hminus, hcovers⟩, hfits⟩

theorem spans_bare_iff {atom : Phrase .atom} : (bare atom).Spans c stop ↔ atom.Spans c stop := by
  rw [spans_iff, spans_iff, tokens, depth, Defined]

theorem spans_number_iff {x : Float} :
    (number x).Spans c stop ↔
      (∃ after, c.rest = .number x :: after ∧ stop = c.past after) ∧ c.level ≤ maxLevel := by
  simp only [spans_iff, tokens, covers_cons_iff, covers_nil_iff, depth, Defined, Nat.add_zero,
    and_true]

theorem spans_group_iff {inner : Phrase .sum} :
    (group inner).Spans c stop ↔
      ∃ after, c.rest = .opening :: after ∧ ∃ place, inner.Spans (c.past after).enter place ∧
        ∃ rest, place.rest = .closing :: rest ∧ stop = place.leave.past rest := by
  rw [spans_iff, tokens, covers_cons_iff, depth, Defined]
  constructor
  · rintro ⟨⟨after, hopening, hcovers⟩, hfits⟩
    obtain ⟨mid, hinner, hclosing⟩ := covers_append_iff.mp hcovers
    obtain ⟨rest, hclosing, hstop⟩ := covers_cons_iff.mp hclosing
    obtain ⟨place, hplace, rfl⟩ := spans_deeper_iff.mpr ⟨hinner, hfits⟩
    exact ⟨after, hopening, place, hplace, rest, hclosing, covers_nil_iff.mp hstop⟩
  · rintro ⟨after, hopening, place, hplace, rest, hclosing, hstop⟩
    obtain ⟨hinner, hfits⟩ := spans_deeper_iff.mp ⟨place, hplace, rfl⟩
    have hcovers : Covers [.closing] place.leave stop :=
      covers_cons_iff.mpr ⟨rest, hclosing, covers_nil_iff.mpr hstop⟩
    exact ⟨⟨after, hopening, covers_append_iff.mpr ⟨_, hinner, hcovers⟩⟩, hfits⟩

/-- Behind a phrase fewer tokens are left, unless it may be empty. -/
theorem Spans.length_lt {p : Phrase k} (h : p.Spans c stop) (hsum : k ≠ .sumRest)
    (hproduct : k ≠ .productRest) : stop.rest.length < c.rest.length := by
  have hsome : p.tokens ≠ [] := fun hnone =>
    (p.rest_of_tokens_eq_nil hnone).elim hsum hproduct
  have hpos := List.length_pos_iff.mpr hsome
  rw [h.covers.rest, List.length_append]
  omega

/-- A phrase that can be read one level deeper leaves room for that level. -/
theorem Spans.level_lt {p : Phrase k} (h : p.Spans c.enter stop) : c.level < maxLevel :=
  Nat.lt_of_lt_of_le (Nat.lt_succ_self _) (Nat.le_of_add_right_le h.depth_le)

end Phrase

/-- At a place, every part of the reader gives what the phrases give that stand there. -/
structure Reads (c : Cursor) : Prop where
  atom : ∀ v stop, (atom c).Gives v stop ↔ ∃ p : Phrase .atom, p.Spans c stop ∧ p.value = v
  operand : ∀ v stop,
    (operand c).Gives v stop ↔ ∃ p : Phrase .operand, p.Spans c stop ∧ p.value = v
  power : ∀ v stop, (power c).Gives v stop ↔
    ∃ p : Phrase .power, p.Spans c stop ∧ Category.power.Ends stop.rest ∧ p.value = v
  productFrom : Category.power.Ends c.rest → ∀ x v stop, (productFrom x c).Gives v stop ↔
    ∃ p : Phrase .productRest, p.Spans c stop ∧ Category.product.Ends stop.rest ∧ p.value x = v
  product : ∀ v stop, (product c).Gives v stop ↔
    ∃ p : Phrase .product, p.Spans c stop ∧ Category.product.Ends stop.rest ∧ p.value = v
  sumFrom : Category.product.Ends c.rest → ∀ x v stop, (sumFrom x c).Gives v stop ↔
    ∃ p : Phrase .sumRest, p.Spans c stop ∧ Category.sum.Ends stop.rest ∧ p.value x = v
  sum : ∀ v stop, (sum c).Gives v stop ↔
    ∃ p : Phrase .sum, p.Spans c stop ∧ Category.sum.Ends stop.rest ∧ p.value = v

section Reading

open Phrase

variable {c : Cursor} (hlevel : c.level ≤ maxLevel)
  (ih : ∀ place : Cursor, place.rest.length < c.rest.length → place.level ≤ maxLevel → Reads place)
include hlevel ih

/-- What stands behind a product or power, which takes some tokens, is read as claimed. -/
private theorem reads_behind {k : Category} {p : Phrase k} {start place : Cursor}
    (hstart : start.rest.length ≤ c.rest.length) (hsame : start.level = c.level)
    (hp : p.Spans start place) (hsum : k ≠ .sumRest) (hproduct : k ≠ .productRest) :
    Reads place := by
  have hlength := Nat.lt_of_lt_of_le (hp.length_lt hsum hproduct) hstart
  exact ih place hlength (hp.covers.level.trans hsame ▸ hlevel)

private theorem atom_reads (v : Float) (stop : Cursor) :
    (atom c).Gives v stop ↔ ∃ p : Phrase .atom, p.Spans c stop ∧ p.value = v := by
  have hreads : ∀ {after}, c.rest = .opening :: after → c.level < maxLevel →
      Reads (c.past after).enter :=
    fun h hdeep => ih _ (by rw [h]; exact Nat.lt_succ_self _) hdeep
  rw [atom_gives_iff]
  constructor
  · rintro (⟨after, hnumber, rfl⟩ | ⟨after, inner, rest, hopening, hdeep, hsum, hclosing, rfl⟩)
    · exact ⟨.number v, spans_number_iff.mpr ⟨⟨after, hnumber, rfl⟩, hlevel⟩, rfl⟩
    · obtain ⟨p, hp, -, rfl⟩ := ((hreads hopening hdeep).sum v inner).mp hsum
      exact ⟨.group p, spans_group_iff.mpr ⟨after, hopening, inner, hp, rest, hclosing, rfl⟩, rfl⟩
  · rintro ⟨p, hp, rfl⟩
    cases p with
    | number x =>
      obtain ⟨⟨after, hnumber, hstop⟩, -⟩ := spans_number_iff.mp hp
      exact .inl ⟨after, hnumber, hstop⟩
    | group p =>
      obtain ⟨after, hopening, inner, hp, rest, hclosing, hstop⟩ := spans_group_iff.mp hp
      have hdeep : c.level < maxLevel := hp.level_lt
      have hends : Category.sum.Ends inner.rest := hclosing ▸ Category.ends_closing _
      have hsum := ((hreads hopening hdeep).sum p.value inner).mpr ⟨p, hp, hends, rfl⟩
      exact .inr ⟨after, inner, rest, hopening, hdeep, hsum, hclosing, hstop⟩

private theorem operand_reads (v : Float) (stop : Cursor) :
    (operand c).Gives v stop ↔ ∃ p : Phrase .operand, p.Spans c stop ∧ p.value = v := by
  by_cases hminus : ∃ after, c.rest = .operator .minus :: after
  · obtain ⟨after, hminus⟩ := hminus
    have hreads : c.level < maxLevel → Reads (c.past after).enter :=
      fun hdeep => ih _ (by rw [hminus]; exact Nat.lt_succ_self _) hdeep
    rw [operand_gives_iff_of_minus hminus]
    constructor
    · rintro ⟨hdeep, x, inner, hoperand, rfl, rfl⟩
      obtain ⟨p, hp, rfl⟩ := ((hreads hdeep).operand x inner).mp hoperand
      exact ⟨.negated p, spans_negated_iff.mpr ⟨after, hminus, inner, hp, rfl⟩, rfl⟩
    · rintro ⟨p, hp, rfl⟩
      cases p with
      | negated p =>
        obtain ⟨after', hminus', inner, hp, hstop⟩ := spans_negated_iff.mp hp
        cases hminus.symm.trans hminus'
        have hdeep : c.level < maxLevel := hp.level_lt
        have hoperand := ((hreads hdeep).operand p.value inner).mpr ⟨p, hp, rfl⟩
        exact ⟨hdeep, p.value, inner, hoperand, rfl, hstop⟩
      | bare p =>
        have hrest := (spans_bare_iff.mp hp).covers.rest
        exact absurd (hrest.symm.trans hminus) (tokens_atom_ne p .minus)
  · have hnot : ∀ after, c.rest ≠ .operator .minus :: after := fun after h => hminus ⟨after, h⟩
    rw [operand_gives_iff_of_ne hnot, atom_reads hlevel ih]
    constructor
    · rintro ⟨p, hp, rfl⟩
      exact ⟨.bare p, spans_bare_iff.mpr hp, rfl⟩
    · rintro ⟨p, hp, rfl⟩
      cases p with
      | negated p =>
        obtain ⟨after, hminus, -⟩ := spans_negated_iff.mp hp
        exact absurd hminus (hnot after)
      | bare p => exact ⟨p, spans_bare_iff.mp hp, rfl⟩

private theorem power_reads (v : Float) (stop : Cursor) :
    (power c).Gives v stop ↔
      ∃ p : Phrase .power, p.Spans c stop ∧ Category.power.Ends stop.rest ∧ p.value = v := by
  have hreads : ∀ {base : Phrase .operand} {place after}, base.Spans c place →
      place.rest = .operator .power :: after → place.level < maxLevel →
      Reads (place.past after).enter := by
    intro base place after hbase hpower hdeep
    have hlength := hbase.length_lt nofun nofun
    rw [hpower] at hlength
    exact ih _ (Nat.lt_of_succ_lt hlength) hdeep
  rw [power_gives_iff]
  constructor
  · rintro ⟨x, place, hoperand, h⟩
    obtain ⟨base, hbase, rfl⟩ := (operand_reads hlevel ih x place).mp hoperand
    obtain ⟨hends, rfl, rfl⟩ | ⟨after, y, inner, hpower, hdeep, hexponent, rfl, rfl⟩ := h
    · exact ⟨.unraised base, spans_unraised_iff.mpr hbase, hends, rfl⟩
    · obtain ⟨p, hp, hends, rfl⟩ := ((hreads hbase hpower hdeep).power y inner).mp hexponent
      exact ⟨.raised base p, spans_raised_iff.mpr ⟨place, hbase, after, hpower, inner, hp, rfl⟩,
        hends, rfl⟩
  · rintro ⟨p, hp, hends, rfl⟩
    cases p with
    | unraised base =>
      have hbase := spans_unraised_iff.mp hp
      have hoperand := (operand_reads hlevel ih base.value stop).mpr ⟨base, hbase, rfl⟩
      exact ⟨base.value, stop, hoperand, .inl ⟨hends, rfl, rfl⟩⟩
    | raised base exponent =>
      obtain ⟨place, hbase, after, hpower, inner, hexponent, rfl⟩ := spans_raised_iff.mp hp
      have hdeep : place.level < maxLevel := hexponent.level_lt
      have hoperand := (operand_reads hlevel ih base.value place).mpr ⟨base, hbase, rfl⟩
      have hraised := ((hreads hbase hpower hdeep).power exponent.value inner).mpr
        ⟨exponent, hexponent, hends, rfl⟩
      exact ⟨base.value, place, hoperand,
        .inr ⟨after, exponent.value, inner, hpower, hdeep, hraised, rfl, rfl⟩⟩

private theorem productFrom_reads (hstart : Category.power.Ends c.rest) (x v : Float)
    (stop : Cursor) :
    (productFrom x c).Gives v stop ↔ ∃ p : Phrase .productRest,
      p.Spans c stop ∧ Category.product.Ends stop.rest ∧ p.value x = v := by
  obtain hends | ⟨sign, after, hsign⟩ := Category.product_ends_or hstart
  · rw [productFrom_gives_iff_of_ends hends]
    constructor
    · rintro ⟨rfl, rfl⟩
      exact ⟨.noFactor, spans_noFactor_iff.mpr ⟨rfl, hlevel⟩, hends, rfl⟩
    · rintro ⟨p, hp, -, rfl⟩
      cases p with
      | noFactor => exact ⟨rfl, (spans_noFactor_iff.mp hp).1⟩
      | factor sign next rest =>
        obtain ⟨after, hsign, -⟩ := spans_factor_iff.mp hp
        exact absurd (hsign ▸ hends) (Category.not_product_ends sign)
  · have hafter : (c.past after).rest.length < c.rest.length := by
      rw [hsign]
      exact Nat.lt_succ_self _
    have hnext := (ih (c.past after) hafter hlevel).power
    have hrest : ∀ {p : Phrase .power} {place}, p.Spans (c.past after) place → Reads place :=
      fun h => reads_behind hlevel ih (Nat.le_of_lt hafter) rfl h nofun nofun
    rw [productFrom_gives_iff_of_sign hsign]
    constructor
    · rintro ⟨y, place, hpower, hadmits, hfrom⟩
      obtain ⟨p, hp, hpEnds, rfl⟩ := (hnext y place).mp hpower
      obtain ⟨q, hq, hqEnds, rfl⟩ := ((hrest hp).productFrom hpEnds _ v stop).mp hfrom
      exact ⟨.factor sign p q, spans_factor_iff.mpr ⟨after, hsign, hadmits, place, hp, hq⟩, hqEnds,
        rfl⟩
    · rintro ⟨p, hp, hends, rfl⟩
      cases p with
      | noFactor =>
        obtain ⟨rfl, -⟩ := spans_noFactor_iff.mp hp
        exact absurd (hsign ▸ hends) (Category.not_product_ends sign)
      | factor sign' p q =>
        obtain ⟨after', hsign', hadmits, place, hfirst, hq⟩ := spans_factor_iff.mp hp
        obtain ⟨hsame, rfl⟩ := List.cons.inj (hsign.symm.trans hsign')
        obtain rfl := ProductSign.operator_inj.mp (Token.operator.inj hsame)
        have hpEnds : Category.power.Ends place.rest := hq.covers.rest ▸ power_ends_rest q hends
        exact ⟨p.value, place, (hnext p.value place).mpr ⟨p, hfirst, hpEnds, rfl⟩, hadmits,
          ((hrest hfirst).productFrom hpEnds _ _ stop).mpr ⟨q, hq, hends, rfl⟩⟩

private theorem product_reads (v : Float) (stop : Cursor) :
    (product c).Gives v stop ↔
      ∃ p : Phrase .product, p.Spans c stop ∧ Category.product.Ends stop.rest ∧ p.value = v := by
  have hrest : ∀ {p : Phrase .power} {place}, p.Spans c place → Reads place :=
    fun h => reads_behind hlevel ih (Nat.le_refl _) rfl h nofun nofun
  rw [product_gives_iff]
  constructor
  · rintro ⟨x, place, hpower, hfrom⟩
    obtain ⟨p, hp, hpEnds, rfl⟩ := (power_reads hlevel ih x place).mp hpower
    obtain ⟨q, hq, hqEnds, rfl⟩ := ((hrest hp).productFrom hpEnds _ v stop).mp hfrom
    exact ⟨.product p q, spans_product_iff.mpr ⟨place, hp, hq⟩, hqEnds, rfl⟩
  · rintro ⟨p, hp, hends, rfl⟩
    cases p with | product p q =>
    obtain ⟨place, hp, hq⟩ := spans_product_iff.mp hp
    have hpEnds : Category.power.Ends place.rest := hq.covers.rest ▸ power_ends_rest q hends
    exact ⟨p.value, place, (power_reads hlevel ih _ _).mpr ⟨p, hp, hpEnds, rfl⟩,
      ((hrest hp).productFrom hpEnds _ _ stop).mpr ⟨q, hq, hends, rfl⟩⟩

private theorem sumFrom_reads (hstart : Category.product.Ends c.rest) (x v : Float)
    (stop : Cursor) :
    (sumFrom x c).Gives v stop ↔ ∃ p : Phrase .sumRest,
      p.Spans c stop ∧ Category.sum.Ends stop.rest ∧ p.value x = v := by
  obtain hends | ⟨sign, after, hsign⟩ := Category.sum_ends_or hstart
  · rw [sumFrom_gives_iff_of_ends hends]
    constructor
    · rintro ⟨rfl, rfl⟩
      exact ⟨.noTerm, spans_noTerm_iff.mpr ⟨rfl, hlevel⟩, hends, rfl⟩
    · rintro ⟨p, hp, -, rfl⟩
      cases p with
      | noTerm => exact ⟨rfl, (spans_noTerm_iff.mp hp).1⟩
      | term sign next rest =>
        obtain ⟨after, hsign, -⟩ := spans_term_iff.mp hp
        exact absurd (hsign ▸ hends) (Category.not_sum_ends sign)
  · have hafter : (c.past after).rest.length < c.rest.length := by
      rw [hsign]
      exact Nat.lt_succ_self _
    have hnext := (ih (c.past after) hafter hlevel).product
    have hrest : ∀ {p : Phrase .product} {place}, p.Spans (c.past after) place → Reads place :=
      fun h => reads_behind hlevel ih (Nat.le_of_lt hafter) rfl h nofun nofun
    rw [sumFrom_gives_iff_of_sign hsign]
    constructor
    · rintro ⟨y, place, hproduct, hfrom⟩
      obtain ⟨p, hp, hpEnds, rfl⟩ := (hnext y place).mp hproduct
      obtain ⟨q, hq, hqEnds, rfl⟩ := ((hrest hp).sumFrom hpEnds _ v stop).mp hfrom
      exact ⟨.term sign p q, spans_term_iff.mpr ⟨after, hsign, place, hp, hq⟩, hqEnds, rfl⟩
    · rintro ⟨p, hp, hends, rfl⟩
      cases p with
      | noTerm =>
        obtain ⟨rfl, -⟩ := spans_noTerm_iff.mp hp
        exact absurd (hsign ▸ hends) (Category.not_sum_ends sign)
      | term sign' p q =>
        obtain ⟨after', hsign', place, hfirst, hq⟩ := spans_term_iff.mp hp
        obtain ⟨hsame, rfl⟩ := List.cons.inj (hsign.symm.trans hsign')
        obtain rfl := SumSign.operator_inj.mp (Token.operator.inj hsame)
        have hpEnds : Category.product.Ends place.rest :=
          hq.covers.rest ▸ product_ends_rest q hends
        exact ⟨p.value, place, (hnext p.value place).mpr ⟨p, hfirst, hpEnds, rfl⟩,
          ((hrest hfirst).sumFrom hpEnds _ _ stop).mpr ⟨q, hq, hends, rfl⟩⟩

private theorem sum_reads (v : Float) (stop : Cursor) :
    (sum c).Gives v stop ↔
      ∃ p : Phrase .sum, p.Spans c stop ∧ Category.sum.Ends stop.rest ∧ p.value = v := by
  have hrest : ∀ {p : Phrase .product} {place}, p.Spans c place → Reads place :=
    fun h => reads_behind hlevel ih (Nat.le_refl _) rfl h nofun nofun
  rw [sum_gives_iff]
  constructor
  · rintro ⟨x, place, hproduct, hfrom⟩
    obtain ⟨p, hp, hpEnds, rfl⟩ := (product_reads hlevel ih x place).mp hproduct
    obtain ⟨q, hq, hqEnds, rfl⟩ := ((hrest hp).sumFrom hpEnds _ v stop).mp hfrom
    exact ⟨.sum p q, spans_sum_iff.mpr ⟨place, hp, hq⟩, hqEnds, rfl⟩
  · rintro ⟨p, hp, hends, rfl⟩
    cases p with | sum p q =>
    obtain ⟨place, hp, hq⟩ := spans_sum_iff.mp hp
    have hpEnds : Category.product.Ends place.rest := hq.covers.rest ▸ product_ends_rest q hends
    exact ⟨p.value, place, (product_reads hlevel ih _ _).mpr ⟨p, hp, hpEnds, rfl⟩,
      ((hrest hp).sumFrom hpEnds _ _ stop).mpr ⟨q, hq, hends, rfl⟩⟩

end Reading

/-- Wherever a level is left, the reader gives what the phrases give that stand there. -/
theorem reads_of_level_le (c : Cursor) (hlevel : c.level ≤ maxLevel) : Reads c := by
  -- By induction on how many tokens are left: every part of a phrase but the first one begins
  -- further on, and the first one is a lower part of speech at the same place.
  induction hlength : c.rest.length using Nat.strongRecOn generalizing c with
  | ind n ih =>
    have ih : ∀ place : Cursor, place.rest.length < c.rest.length → place.level ≤ maxLevel →
        Reads place :=
      fun place hlt hplace => ih _ (hlength ▸ hlt) place hplace rfl
    exact ⟨atom_reads hlevel ih, operand_reads hlevel ih, power_reads hlevel ih,
      productFrom_reads hlevel ih, product_reads hlevel ih, sumFrom_reads hlevel ih,
      sum_reads hlevel ih⟩

end Colloquy.Expression
