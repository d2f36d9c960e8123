import Colloquy.Proofs.Expression.Evaluation

/-!
# Lexemes of expressions

A text is made of lexemes with any blanks around them: signs, parentheses, runs of digits and points
that are as long as can be, and characters that belong to none of these. Each lexeme is read by
itself, so that a text has the tokens of its lexemes or the fault of the first of them that is no
token, and the blanks between them say nothing.
-/

namespace Colloquy.Expression

/-- A run of digits and points. -/
structure Literal where
  /-- The digits and points. -/
  chars : List Char
  /-- There is at least one. -/
  ne_nil : chars ≠ []
  /-- There are no other characters. -/
  numeric : chars.all isNumberChar = true

/-- A character that has no place in an expression. -/
structure Stray where
  /-- The character. -/
  char : Char
  /-- It is no blank. -/
  not_blank : Text.isBlank char = false
  /-- It is neither a sign nor a parenthesis. -/
  not_symbol : symbol? char = none
  /-- It is neither a digit nor a point. -/
  not_numeric : isNumberChar char = false

/-- A part of a text, such as a reader tells it from the next one. -/
inductive Lexeme where
  /-- The sign of an operator. -/
  | operator (op : Operator)
  /-- An opening parenthesis. -/
  | opening
  /-- A closing parenthesis. -/
  | closing
  /-- A number, if it is one. -/
  | literal (run : Literal)
  /-- Any other character. -/
  | stray (other : Stray)

namespace Lexeme

/-- The characters of a lexeme. -/
def chars : Lexeme → List Char
  | .operator op => [op.sign]
  | .opening => ['(']
  | .closing => [')']
  | .literal run => run.chars
  | .stray other => [other.char]

/-- A lexeme is a run of digits and points. -/
def IsLiteral : Lexeme → Prop
  | .literal _ => True
  | _ => False

/-- A lexeme is a token: a number has a digit and at most one point. -/
def Sound : Lexeme → Prop
  | .literal run => (∃ c ∈ run.chars, c.isDigit = true) ∧ run.chars.count '.' ≤ 1
  | .stray _ => False
  | _ => True

instance : DecidablePred Sound
  | .literal run => decidable_of_iff
      (run.chars.any Char.isDigit = true ∧ run.chars.count '.' ≤ 1) (by rw [Sound, List.any_eq_true])
  | .stray _ => .isFalse id
  | .operator _ | .opening | .closing => .isTrue trivial

/-- The token that a lexeme is. -/
inductive Is : Lexeme → Token → Prop
  /-- A sign is its operator. -/
  | operator (op : Operator) : Is (.operator op) (.operator op)
  /-- An opening parenthesis is one. -/
  | opening : Is .opening .opening
  /-- A closing parenthesis is one. -/
  | closing : Is .closing .closing
  /-- A run of digits and points is the number that it denotes. -/
  | literal {run : Literal} {x : Float} (hx : number? run.chars = some x) :
    Is (.literal run) (.number x)

/-- What is said of a lexeme that is no token; of the others there is nothing to say. -/
def complaint : Lexeme → String
  | .literal run => "Invalid number: " ++ String.ofList run.chars
  | .stray other => "Unexpected character: '" ++ other.char.toString ++ "'"
  | _ => ""

/-- The token that a lexeme is read as, by itself. -/
def read : Lexeme → Except Fault Token
  | .operator op => .ok (.operator op)
  | .opening => .ok .opening
  | .closing => .ok .closing
  | .literal run =>
    match number? run.chars with
    | some x => .ok (.number x)
    | none => .error (.invalidNumber (String.ofList run.chars))
  | .stray other => .error (.unexpectedCharacter other.char)

end Lexeme

/-- How lexemes are written out: with blanks in front of them and behind them, of which there is one
at least between two runs of digits and points. -/
inductive Writes : List Lexeme → List Char → Prop
  /-- No characters are no lexemes. -/
  | nil : Writes [] []
  /-- A blank may stand anywhere. -/
  | blank {c : Char} {ls : List Lexeme} {cs : List Char} (hc : Text.isBlank c = true)
    (h : Writes ls cs) : Writes ls (c :: cs)
  /-- A lexeme is written as it is. -/
  | lexeme {l : Lexeme} {ls : List Lexeme} {cs : List Char}
    (hapart : l.IsLiteral → ∀ next ∈ ls.head?, next.IsLiteral →
      ∃ c ∈ cs.head?, Text.isBlank c = true)
    (h : Writes ls cs) : Writes (l :: ls) (l.chars ++ cs)

section Numbers

variable {cs : List Char}

/-- Behind the digits at the front of a run there is nothing, or a point. -/
private theorem dropWhile_isDigit_cases (h : ∀ c ∈ cs, isNumberChar c = true) :
    cs.dropWhile Char.isDigit = [] ∨
      ∃ fraction, cs.dropWhile Char.isDigit = '.' :: fraction := by
  have hend := head_dropWhile Char.isDigit cs
  cases hrest : cs.dropWhile Char.isDigit with
  | nil => exact .inl rfl
  | cons c fraction =>
    rw [hrest] at hend
    have hmem : c ∈ cs := (List.dropWhile_suffix _).subset (hrest ▸ List.mem_cons_self)
    have hpoint : c = '.' := by simpa [isNumberChar, hend c rfl] using h c hmem
    exact .inr ⟨fraction, by rw [hpoint]⟩

private theorem count_point_eq_zero (h : ∀ c ∈ cs, isNumberChar c = true) :
    cs.count '.' = 0 ↔ ∀ c ∈ cs, c.isDigit = true := by
  rw [List.count_eq_zero]
  constructor
  · intro hpoint c hc
    have hother : c ≠ '.' := fun heq => hpoint (heq ▸ hc)
    simpa [isNumberChar, hother] using h c hc
  · intro hall hmem
    exact absurd (hall '.' hmem) (by decide)

private theorem ne_nil_iff_exists (h : ∀ c ∈ cs, c.isDigit = true) :
    cs ≠ [] ↔ ∃ c ∈ cs, c.isDigit = true := by
  constructor
  · intro hne
    obtain ⟨c, hc⟩ := List.exists_mem_of_ne_nil cs hne
    exact ⟨c, hc, h c hc⟩
  · rintro ⟨c, hc, -⟩
    exact List.ne_nil_of_mem hc

/-- A run of digits and points is a number if it has a digit and at most one point. -/
theorem exists_number?_iff (h : ∀ c ∈ cs, isNumberChar c = true) :
    (∃ x, number? cs = some x) ↔ (∃ c ∈ cs, c.isDigit = true) ∧ cs.count '.' ≤ 1 := by
  have hnumber : (∃ x, number? cs = some x) ↔
      (∀ c ∈ (cs.dropWhile Char.isDigit).drop 1, c.isDigit = true) ∧
        cs.takeWhile Char.isDigit ++ (cs.dropWhile Char.isDigit).drop 1 ≠ [] := by
    simp only [number?, ne_eq, List.length_eq_zero_iff, Bool.and_eq_true, decide_eq_true_eq,
      List.all_eq_true]
    split
    · next hdigits => exact iff_of_true ⟨_, rfl⟩ hdigits
    · next hdigits => exact iff_of_false nofun hdigits
  have hwhole : ∀ c ∈ cs.takeWhile Char.isDigit, c.isDigit = true :=
    fun c hc => List.mem_takeWhile_imp hc
  have hrest := dropWhile_isDigit_cases h
  have hsplit : cs.takeWhile Char.isDigit ++ cs.dropWhile Char.isDigit = cs :=
    List.takeWhile_append_dropWhile
  generalize cs.takeWhile Char.isDigit = whole at hwhole hnumber hsplit
  generalize cs.dropWhile Char.isDigit = rest at hrest hnumber hsplit
  subst hsplit
  obtain ⟨hwholeNumeric, hrestNumeric⟩ := List.forall_mem_append.mp h
  have hnone : whole.count '.' = 0 := (count_point_eq_zero hwholeNumeric).mpr hwhole
  rw [hnumber]
  obtain rfl | ⟨fraction, rfl⟩ := hrest
  · simp [hnone, ne_nil_iff_exists hwhole]
  · have hpoints : (whole ++ '.' :: fraction).count '.' ≤ 1 ↔ ∀ c ∈ fraction, c.isDigit = true := by
      rw [← count_point_eq_zero (List.forall_mem_cons.mp hrestNumeric).2, List.count_append, hnone,
        List.count_cons_self]
      omega
    have hdigit : (∃ c ∈ whole ++ '.' :: fraction, c.isDigit = true) ↔
        ∃ c ∈ whole ++ fraction, c.isDigit = true := by
      have hpoint : '.'.isDigit = false := rfl
      simp only [List.mem_append, List.mem_cons, or_and_right, exists_or, exists_eq_left, hpoint,
        Bool.false_eq_true, false_or]
    rw [hpoints, hdigit, List.drop_one, List.tail_cons, and_comm]
    refine and_congr_left fun hfraction => ?_
    exact ne_nil_iff_exists (List.forall_mem_append.mpr ⟨hwhole, hfraction⟩)

end Numbers

namespace Lexeme

/-- A lexeme that is a token is read as that token. -/
theorem read_eq_ok_iff {l : Lexeme} {token : Token} : l.read = .ok token ↔ l.Is token := by
  constructor
  · intro h
    cases l with
    | operator op => cases h; exact .operator op
    | opening => cases h; exact .opening
    | closing => cases h; exact .closing
    | literal run =>
      rw [read] at h
      split at h
      · next x hx => cases h; exact .literal hx
      · cases h
    | stray other => cases h
  · rintro (op | _ | _ | hx)
    · rfl
    · rfl
    · rfl
    · rw [read, hx]

/-- The lexemes that are tokens are the sound ones. -/
theorem exists_read_iff {l : Lexeme} : (∃ token, l.read = .ok token) ↔ l.Sound := by
  cases l with
  | literal run =>
    rw [Sound, ← exists_number?_iff (List.all_eq_true.mp run.numeric), read]
    cases number? run.chars <;> simp
  | stray other => exact iff_of_false nofun id
  | _ => exact iff_of_true ⟨_, rfl⟩ trivial

/-- A lexeme that is no token is complained of. -/
theorem message_of_read {l : Lexeme} {fault : Fault} (h : l.read = .error fault) :
    fault.message = l.complaint := by
  cases l with
  | literal run =>
    rw [read] at h
    split at h
    · cases h
    · cases h
      rfl
  | stray other => cases h; rfl
  | _ => cases h

end Lexeme

namespace Writes

variable {ls : List Lexeme} {cs : List Char}

/-- Whatever may stand behind a literal does not begin with a character of a number, and the other
way round. -/
theorem apart_iff (h : Writes ls cs) :
    (∀ next ∈ ls.head?, next.IsLiteral → ∃ c ∈ cs.head?, Text.isBlank c = true) ↔
      ∀ c ∈ cs.head?, isNumberChar c = false := by
  cases h with
  | nil => exact ⟨fun _ _ hc => (nomatch hc), fun _ _ hnext => (nomatch hnext)⟩
  | @blank c _ _ hspace _ =>
    refine iff_of_true (fun _ _ _ => ⟨c, rfl, hspace⟩) ?_
    rintro d ⟨⟩
    exact Bool.eq_false_iff.mpr fun hnumeric => not_isBlank_of_isNumberChar hnumeric hspace
  | @lexeme l _ _ _ _ =>
    cases l with
    | literal run =>
      obtain ⟨chars, hne, hnumeric⟩ := run
      obtain ⟨c, digits, rfl⟩ := List.exists_cons_of_ne_nil hne
      have hc := List.all_eq_true.mp hnumeric c List.mem_cons_self
      refine iff_of_false (fun hapart => ?_) (fun hend => ?_)
      · obtain ⟨d, ⟨⟩, hspace⟩ := hapart _ rfl trivial
        exact not_isBlank_of_isNumberChar hc hspace
      · exact Bool.false_ne_true ((hend c rfl).symm.trans hc)
    | operator op =>
      refine iff_of_true (by rintro _ ⟨⟩ ⟨⟩) ?_
      rintro _ ⟨⟩
      cases op <;> rfl
    | opening | closing => exact iff_of_true (by rintro _ ⟨⟩ ⟨⟩) (by rintro _ ⟨⟩; rfl)
    | stray other =>
      exact iff_of_true (by rintro _ ⟨⟩ ⟨⟩) (by rintro _ ⟨⟩; exact other.not_numeric)

/-- The tokens of a text are those of its lexemes. -/
theorem tokens_eq (h : Writes ls cs) : tokens cs = ls.mapM Lexeme.read := by
  induction h with
  | nil => rw [tokens]; rfl
  | blank hc _ ih => rw [tokens_blank hc, ih]
  | @lexeme l ls cs hapart h ih =>
    rw [List.mapM_cons, ← ih]
    cases l with
    | operator op =>
      exact tokens_symbol (by cases op <;> rfl)
    | opening | closing => exact tokens_symbol rfl
    | literal run =>
      obtain ⟨chars, hne, hnumeric⟩ := run
      obtain ⟨c, digits, rfl⟩ := List.exists_cons_of_ne_nil hne
      refine (tokens_run (List.all_eq_true.mp hnumeric) (h.apart_iff.mp (hapart trivial))).trans ?_
      rw [Lexeme.read]
      cases number? (c :: digits) <;> rfl
    | stray other =>
      have hblank : ¬ Text.isBlank other.char = true := Bool.eq_false_iff.mp other.not_blank
      have hnumeric : ¬ isNumberChar other.char = true := Bool.eq_false_iff.mp other.not_numeric
      rw [Lexeme.chars, Lexeme.read, List.singleton_append, tokens, if_neg hblank,
        other.not_symbol]
      dsimp only
      rw [if_neg hnumeric]
      rfl

end Writes

/-- A character that is neither a blank nor part of a number is a lexeme of its own. -/
private theorem exists_lexeme {c : Char} (hblank : Text.isBlank c = false)
    (hnumeric : isNumberChar c = false) : ∃ l : Lexeme, l.chars = [c] ∧ ¬ l.IsLiteral := by
  cases hsymbol : symbol? c with
  | none => exact ⟨.stray ⟨c, hblank, hsymbol, hnumeric⟩, rfl, id⟩
  | some token =>
    unfold symbol? at hsymbol
    split at hsymbol
    · exact ⟨.operator .plus, rfl, id⟩
    · exact ⟨.operator .minus, rfl, id⟩
    · exact ⟨.operator .times, rfl, id⟩
    · exact ⟨.operator .over, rfl, id⟩
    · exact ⟨.operator .modulo, rfl, id⟩
    · exact ⟨.operator .power, rfl, id⟩
    · exact ⟨.opening, rfl, id⟩
    · exact ⟨.closing, rfl, id⟩
    · cases hsymbol

/-- Every text is made of lexemes. -/
theorem exists_writes (cs : List Char) : ∃ ls, Writes ls cs := by
  induction hn : cs.length using Nat.strongRecOn generalizing cs with
  | ind n ih =>
    subst hn
    cases cs with
    | nil => exact ⟨[], .nil⟩
    | cons c rest =>
      cases hblank : Text.isBlank c with
      | true =>
        obtain ⟨ls, h⟩ := ih _ (Nat.lt_succ_self _) rest rfl
        exact ⟨ls, .blank hblank h⟩
      | false =>
        cases hnumeric : isNumberChar c with
        | false =>
          obtain ⟨ls, h⟩ := ih _ (Nat.lt_succ_self _) rest rfl
          obtain ⟨l, hchars, hother⟩ := exists_lexeme hblank hnumeric
          have hwrites := Writes.lexeme (fun hliteral => absurd hliteral hother) h
          rw [hchars] at hwrites
          exact ⟨l :: ls, hwrites⟩
        | true =>
          -- The whole run is one lexeme, so that no other literal begins right behind it.
          have hshorter := List.length_dropWhile_le isNumberChar rest
          obtain ⟨ls, h⟩ := ih _ (Nat.lt_succ_of_le hshorter) _ rfl
          let run : Literal := ⟨c :: rest.takeWhile isNumberChar, List.cons_ne_nil _ _,
            List.all_eq_true.mpr <|
              List.forall_mem_cons.mpr ⟨hnumeric, fun d hd => List.mem_takeWhile_imp hd⟩⟩
          have hwrites : Writes (.literal run :: ls) (run.chars ++ rest.dropWhile isNumberChar) :=
            .lexeme (fun _ => h.apart_iff.mpr (head_dropWhile isNumberChar rest)) h
          rw [List.cons_append, List.takeWhile_append_dropWhile] at hwrites
          exact ⟨_, hwrites⟩

section Outcomes

variable {ls : List Lexeme} {cs : List Char}

/-- A text of sound lexemes has one token for each, in their order. -/
theorem Writes.tokens_eq_ok_iff_is (h : Writes ls cs) {ts : List Token} :
    tokens cs = .ok ts ↔ List.Forall₂ Lexeme.Is ls ts := by
  rw [h.tokens_eq, mapM_eq_ok_iff]
  simp only [Lexeme.read_eq_ok_iff]

/-- A text has tokens if its lexemes are sound. -/
theorem Writes.exists_tokens_iff (h : Writes ls cs) :
    (∃ ts, tokens cs = .ok ts) ↔ ∀ l ∈ ls, l.Sound := by
  rw [h.tokens_eq, exists_mapM_eq_ok_iff]
  simp only [Lexeme.exists_read_iff]

/-- A text has the fault of the first of its lexemes that is not sound. -/
theorem Writes.exists_tokens_eq_error (h : Writes ls cs) {before behind : List Lexeme} {l : Lexeme}
    (hls : ls = before ++ l :: behind) (hbefore : ∀ sound ∈ before, sound.Sound)
    (hl : ¬ l.Sound) : ∃ fault, tokens cs = .error fault ∧ fault.message = l.complaint := by
  cases hread : l.read with
  | ok token => exact absurd (Lexeme.exists_read_iff.mp ⟨token, hread⟩) hl
  | error fault =>
    refine ⟨fault, ?_, Lexeme.message_of_read hread⟩
    rw [h.tokens_eq, mapM_eq_error_iff]
    exact ⟨before, l, behind, hls, fun sound hmem => Lexeme.exists_read_iff.mpr (hbefore sound hmem),
      hread⟩

end Outcomes

/-- Reading a text asks for no part that the text does not have and gives the tokens of its characters.
Texts that write out the same lexemes with different blanks are read alike and come to the same value or
fault. A text has one token for each of its lexemes, in their order, if every run of digits and points has
a digit and at most one point, and else the fault that names the first lexeme of which this does not hold
or which is a character without a place. Every text that is read arises in this way. -/
theorem lex_by_lexemes :
    (∀ text, lex text = some (tokens text.toList)) ∧
      (∀ (ls : List Lexeme) (text other : String), Writes ls text.toList → Writes ls other.toList →
        text.length ≤ 4096 → other.length ≤ 4096 →
        lex text = lex other ∧ evaluate text = evaluate other) ∧
      (∀ (ls : List Lexeme) (text : String), Writes ls text.toList →
        ((∀ l ∈ ls, l.Sound) → ∃ ts, lex text = some (.ok ts) ∧ List.Forall₂ Lexeme.Is ls ts) ∧
          ∀ before l behind, ls = before ++ l :: behind → (∀ sound ∈ before, sound.Sound) →
            ¬ l.Sound → ∃ fault, lex text = some (.error fault) ∧ fault.message = l.complaint) ∧
      ∀ text, (∃ ls, Writes ls text.toList) ∧
        ∀ ts, lex text = some (.ok ts) → ∃ ls, Writes ls text.toList ∧ ∀ l ∈ ls, l.Sound := by
  refine ⟨lex_eq, ?_, ?_, ?_⟩
  · intro ls text other htext hother hlength hlength'
    rw [lex_eq, lex_eq, evaluate_of_length_le hlength, evaluate_of_length_le hlength',
      htext.tokens_eq, hother.tokens_eq]
    exact ⟨rfl, rfl⟩
  · intro ls text h
    simp only [lex_eq, Option.some.injEq]
    refine ⟨fun hsound => ?_, fun before l behind hls hbefore hl =>
      h.exists_tokens_eq_error hls hbefore hl⟩
    obtain ⟨ts, htokens⟩ := h.exists_tokens_iff.mpr hsound
    exact ⟨ts, htokens, h.tokens_eq_ok_iff_is.mp htokens⟩
  · intro text
    obtain ⟨ls, h⟩ := exists_writes text.toList
    simp only [lex_eq, Option.some.injEq]
    exact ⟨⟨ls, h⟩, fun ts htokens => ⟨ls, h, h.exists_tokens_iff.mp ⟨ts, htokens⟩⟩⟩

/-- A sum that is written without blanks and with blanks of three kinds, the first of which has three
bytes, and a run with two points behind an opening parenthesis. -/
theorem lex_by_lexemes_blanks :
    let one : Lexeme := .literal ⟨['1'], by decide, by decide⟩
    let half : Lexeme := .literal ⟨['.', '5'], by decide, by decide⟩
    let sum := [one, .operator .plus, half]
    (Writes sum "1+.5".toList ∧ Writes sum "\u3000 1\t+ .5".toList ∧
      lex "1+.5" = lex "\u3000 1\t+ .5" ∧ evaluate "1+.5" = evaluate "\u3000 1\t+ .5") ∧
      (∃ ts, lex "\u3000 1\t+ .5" = some (.ok ts) ∧ List.Forall₂ Lexeme.Is sum ts) ∧
      ∃ fault, lex "( 1.." = some (.error fault) ∧ fault.message = "Invalid number: 1.." := by
  intro one half sum
  let twice : Lexeme := .literal ⟨['1', '.', '.'], by decide, by decide⟩
  obtain ⟨-, hsame, hlexemes, -⟩ := lex_by_lexemes
  have hdense : Writes sum "1+.5".toList :=
    .lexeme (by rintro _ _ ⟨⟩ ⟨⟩) (.lexeme nofun (.lexeme (by rintro _ _ ⟨⟩) .nil))
  have hsparse : Writes sum "\u3000 1\t+ .5".toList :=
    .blank (by decide) <| .blank (by decide) <| .lexeme (by rintro _ _ ⟨⟩ ⟨⟩) <|
      .blank (by decide) <| .lexeme nofun <| .blank (by decide) <|
        .lexeme (by rintro _ _ ⟨⟩) .nil
  have hfaulty : Writes [.opening, twice] "( 1..".toList :=
    .lexeme nofun (.blank (by decide) (.lexeme (by rintro _ _ ⟨⟩) .nil))
  refine ⟨⟨hdense, hsparse, hsame _ _ _ hdense hsparse (by decide) (by decide)⟩,
    (hlexemes _ _ hsparse).1 (by decide),
    (hlexemes _ _ hfaulty).2 [.opening] twice [] rfl (by decide) (by decide)⟩

end Colloquy.Expression
