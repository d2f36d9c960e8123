import Colloquy.Expression.Token

/-!
# Reading the tokens of an expression

An expression is read from its front, each character with the place at which it begins, counted in
bytes. A number is cut out of the text, from the place at which its first character begins to the place
at which its last one ends. A text has no part between places that are not ends of characters, that are
the wrong way round or that lie behind its end; the places of a number are never of these kinds, and
what is read are the tokens of the characters.
-/

namespace Colloquy.Expression

/-- Characters that begin at a place, each with its own place. -/
def placed (place : Nat) : List Char → List (Nat × Char)
  | [] => []
  | c :: cs => (place, c) :: placed (place + c.utf8Size) cs

/-- The part of a text between two places, if it has one. -/
def slice? (text : String) (start stop : Nat) : Option String := do
  let first ← text.pos? ⟨start⟩
  let last ← text.pos? ⟨stop⟩
  let part ← text.slice? first last
  some part.copy

/-- Where a run of digits and points ends that has come to the place `stop`, and what is left behind
it. -/
def runEnd (stop : Nat) : List (Nat × Char) → Nat × List (Nat × Char)
  | [] => (stop, [])
  | (place, c) :: rest =>
    if isNumberChar c then runEnd (place + c.utf8Size) rest else (stop, (place, c) :: rest)

theorem length_runEnd_le (stop : Nat) (rest : List (Nat × Char)) :
    (runEnd stop rest).2.length ≤ rest.length := by
  induction rest generalizing stop with
  | nil => exact Nat.le_refl _
  | cons head rest ih =>
    rw [runEnd]
    split
    · exact Nat.le_succ_of_le (ih _)
    · exact Nat.le_refl _

/-- A run takes the character that it begins with. -/
theorem length_runEnd_lt {c : Char} (h : isNumberChar c = true) (stop place : Nat)
    (rest : List (Nat × Char)) :
    (runEnd stop ((place, c) :: rest)).2.length < ((place, c) :: rest).length := by
  rw [runEnd, if_pos h]
  exact Nat.lt_succ_of_le (length_runEnd_le _ rest)

/-- Reads the characters that are left behind the tokens that were read. There is no result if a number
is to be cut out where the text has no part. -/
def readFrom (text : String) (read : List Token) :
    List (Nat × Char) → Option (Except Fault (List Token))
  | [] => some (.ok read)
  | (start, c) :: rest =>
    if Text.isBlank c then readFrom text read rest
    else match symbol? c with
      | some token => readFrom text (read ++ [token]) rest
      | none =>
        if isNumberChar c then
          let run := runEnd start ((start, c) :: rest)
          match slice? text start run.1 with
          | none => none
          | some literal =>
            match number? literal.toList with
            | some x => readFrom text (read ++ [.number x]) run.2
            | none => some (.error (.invalidNumber literal))
        else some (.error (.unexpectedCharacter c))
termination_by rest => rest.length
decreasing_by
  · exact Nat.lt_succ_self _
  · exact Nat.lt_succ_self _
  · exact length_runEnd_lt ‹_› ..

/-- The tokens of a text, if each of its numbers is a part of it. -/
def lex (text : String) : Option (Except Fault (List Token)) :=
  readFrom text [] (placed 0 text.toList)

section Places

/-- A front part ends at a place of the text. -/
private theorem exists_pos? {text before behind : String} (h : text = before ++ behind) :
    ∃ place, text.pos? ⟨before.utf8ByteSize⟩ = some place ∧ place.Splits before behind := by
  have hvalid : String.Pos.Raw.IsValid text ⟨before.utf8ByteSize⟩ :=
    String.Pos.Raw.isValid_iff_exists_append.mpr ⟨before, behind, h, rfl⟩
  refine ⟨text.pos _ hvalid, ?_, h, rfl⟩
  rw [String.pos?, String.Slice.pos?, dif_pos]
  · rfl
  · rwa [String.Pos.Raw.isValidForSlice_eq_true_iff, String.Pos.Raw.isValidForSlice_toSlice_iff]

/-- Between the ends of two front parts stands what the longer one has more. -/
theorem slice?_append (before part behind : String) :
    slice? (before ++ part ++ behind) before.utf8ByteSize (before ++ part).utf8ByteSize =
      some part := by
  obtain ⟨first, hfirst, hbefore⟩ :=
    exists_pos? (String.append_assoc : before ++ part ++ behind = before ++ (part ++ behind))
  obtain ⟨last, hlast, hbehind⟩ :=
    exists_pos? (rfl : before ++ part ++ behind = (before ++ part) ++ behind)
  obtain ⟨hle, hcopy⟩ := String.copy_slice_eq_iff_splits.mpr ⟨before, behind, hbefore, hbehind⟩
  simp only [slice?, hfirst, hlast, String.slice?, dif_pos hle, Option.bind_eq_bind,
    Option.bind_some, hcopy]

example : slice? "\u30001+2" 3 4 = some "1" ∧ slice? "\u30001+2" 1 4 = none ∧
    slice? "\u30001+2" 4 3 = none ∧ slice? "\u30001+2" 3 7 = none := by decide +kernel

/-- One more character in front is one less behind. -/
private theorem push_append (before : String) (c : Char) (cs : List Char) :
    before.push c ++ String.ofList cs = before ++ String.ofList (c :: cs) := by
  rw [String.ofList_cons, ← String.append_assoc, String.append_singleton]

/-- A run ends behind its last digit or point. -/
theorem runEnd_placed (before : String) (cs : List Char) :
    runEnd before.utf8ByteSize (placed before.utf8ByteSize cs) =
      let stop := (before ++ String.ofList (cs.takeWhile isNumberChar)).utf8ByteSize
      (stop, placed stop (cs.dropWhile isNumberChar)) := by
  induction cs generalizing before with
  | nil => simp [placed, runEnd]
  | cons c cs ih =>
    rw [placed, runEnd]
    by_cases hnumeric : isNumberChar c = true
    · rw [if_pos hnumeric, List.takeWhile_cons_of_pos hnumeric, List.dropWhile_cons_of_pos hnumeric,
        ← String.utf8ByteSize_push, ih, push_append]
    · rw [if_neg hnumeric, List.takeWhile_cons_of_neg hnumeric,
        List.dropWhile_cons_of_neg hnumeric, String.ofList_nil, String.append_empty]
      rfl

/-- A number is cut out of the text as the run of digits and points that it begins with. -/
theorem readFrom_run {c : Char} {rest : List Char} (hblank : ¬ Text.isBlank c = true)
    (hsymbol : symbol? c = none) (hnumeric : isNumberChar c = true) (before : String)
    (read : List Token) :
    readFrom (before ++ String.ofList (c :: rest)) read (placed before.utf8ByteSize (c :: rest)) =
      let literal := c :: rest.takeWhile isNumberChar
      let behind := rest.dropWhile isNumberChar
      match number? literal with
      | some x =>
        readFrom (before ++ String.ofList literal ++ String.ofList behind) (read ++ [.number x])
          (placed (before ++ String.ofList literal).utf8ByteSize behind)
      | none => some (.error (.invalidNumber (String.ofList literal))) := by
  have hrun := runEnd_placed before (c :: rest)
  rw [List.takeWhile_cons_of_pos hnumeric, List.dropWhile_cons_of_pos hnumeric, placed] at hrun
  have htext : before ++ String.ofList (c :: rest) =
      before ++ String.ofList (c :: rest.takeWhile isNumberChar) ++
        String.ofList (rest.dropWhile isNumberChar) := by
    rw [String.append_assoc, ← String.ofList_append, List.cons_append,
      List.takeWhile_append_dropWhile]
  rw [placed, readFrom, if_neg hblank, hsymbol]
  dsimp only
  rw [if_pos hnumeric, hrun, htext]
  dsimp only
  rw [slice?_append]
  dsimp only
  rw [String.toList_ofList]

/-- Whatever was read of a text, behind it the tokens of the characters that are left are read. The
places of these characters are those behind what was read, so that no number is missed. -/
theorem readFrom_placed (before : String) (read : List Token) (cs : List Char) :
    readFrom (before ++ String.ofList cs) read (placed before.utf8ByteSize cs) =
      some ((tokens cs).map (read ++ ·)) := by
  fun_induction tokens cs generalizing before read with
  | case1 => simp [placed, readFrom, Except.map]
  | case2 c rest hblank ih =>
    rw [placed, readFrom, if_pos hblank, ← String.utf8ByteSize_push, ← push_append, ih]
  | case3 c rest hblank token hsymbol ih =>
    rw [placed, readFrom, if_neg hblank, hsymbol]
    dsimp only
    rw [← String.utf8ByteSize_push, ← push_append, ih]
    cases tokens rest <;> simp [Except.map, bind, Except.bind]
  | case4 c rest hblank hsymbol hnumeric literal x hx ih =>
    rw [readFrom_run hblank hsymbol hnumeric]
    dsimp only
    rw [hx]
    dsimp only
    rw [ih]
    cases tokens (rest.dropWhile isNumberChar) <;> simp [Except.map, bind, Except.bind]
  | case5 c rest hblank hsymbol hnumeric literal hnone =>
    rw [readFrom_run hblank hsymbol hnumeric]
    dsimp only
    rw [hnone]
    rfl
  | case6 c rest hblank hsymbol hnumeric =>
    rw [placed, readFrom, if_neg hblank, hsymbol]
    dsimp only
    rw [if_neg hnumeric]
    rfl

/-- Every number is a part of the text, and what is read are the tokens of its characters. -/
theorem lex_eq (text : String) : lex text = some (tokens text.toList) := by
  have hread := readFrom_placed "" [] text.toList
  rw [String.ofList_toList, String.empty_append, String.utf8ByteSize_empty] at hread
  rw [lex, hread]
  cases tokens text.toList <;> rfl

theorem isSome_lex (text : String) : (lex text).isSome = true := by
  rw [lex_eq]
  rfl

end Places

end Colloquy.Expression
