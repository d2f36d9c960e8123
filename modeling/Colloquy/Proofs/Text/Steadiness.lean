import Colloquy.Text.Scan

/-!
# Steady scans

A scan is steady if it leaves an end of the text, and reads the text in the same way whatever stands
behind, as long as that begins with a character at which the scan stops. Scans that are made of
steady ones are steady.
-/

namespace Colloquy.Text.Scan

variable {α β : Type}

theorem bind_apply (scan : Scan α) (f : α → Scan β) (cs : List Char) :
    (scan >>= f) cs = (scan cs).bind fun read => f read.1 read.2 := by
  change (scan cs >>= fun read => f read.1 read.2) = _
  cases scan cs <;> rfl

/-- A scan behind one that has been read. -/
theorem bind_of_eq {scan : Scan α} {f : α → Scan β} {cs rest : List Char} {a : α}
    (h : scan cs = some (a, rest)) : (scan >>= f) cs = f a rest := by
  rw [bind_apply, h]
  rfl

theorem digits_apply (least : Nat) (most : Option Nat) (cs : List Char) :
    digits least most cs =
      let run := cs.takeWhile Char.isDigit
      let ds := most.elim run run.take
      if ds.length < least then none else some (ds, cs.drop ds.length) := by
  cases most with
  | none =>
    change (if (cs.takeWhile Char.isDigit).length < least then _ else _ : Scan (List Char)) cs = _
    dsimp only [Option.elim]
    split <;> rfl
  | some most =>
    change (if ((cs.takeWhile Char.isDigit).take most).length < least then _ else _ :
      Scan (List Char)) cs = _
    dsimp only [Option.elim]
    split <;> rfl

/-- A run of characters ends in front of one that does not belong to it. -/
theorem takeWhile_append_of_head {p : Char → Bool} (cs : List Char) {more : List Char}
    (hmore : ∀ c ∈ more.head?, p c = false) :
    (cs ++ more).takeWhile p = cs.takeWhile p := by
  have hnone : more.takeWhile p = [] := by
    cases more with
    | nil => rfl
    | cons c more => exact List.takeWhile_cons_of_neg (by simp [hmore c rfl])
  rw [List.takeWhile_append, hnone, List.append_nil]
  split
  · next hall => exact ((List.takeWhile_prefix p).eq_of_length hall).symm
  · rfl

/-- A scan that leaves an end of the text, and reads it in the same way in front of whatever begins
with a character at which it stops. -/
def Steady (stops : Char → Prop) (scan : Scan α) : Prop :=
  ∀ cs a rest, scan cs = some (a, rest) →
    rest <:+ cs ∧ ∀ more, (∀ c ∈ more.head?, stops c) → scan (cs ++ more) = some (a, rest ++ more)

namespace Steady

variable {stops : Char → Prop} {scan : Scan α}

theorem bind (h : Steady stops scan) {f : α → Scan β} (hf : ∀ a, Steady stops (f a)) :
    Steady stops (scan >>= f) := by
  intro cs b rest hread
  rw [bind_apply, Option.bind_eq_some_iff] at hread
  obtain ⟨⟨a, mid⟩, hfirst, hsecond⟩ := hread
  obtain ⟨hmid, hscan⟩ := h cs a mid hfirst
  obtain ⟨hrest, hf⟩ := hf a mid b rest hsecond
  refine ⟨hrest.trans hmid, fun more hmore => ?_⟩
  rw [bind_apply, hscan more hmore]
  exact hf more hmore

theorem pure (a : α) : Steady stops (Pure.pure a) := by
  intro cs b rest hread
  cases hread
  exact ⟨List.suffix_refl _, fun _ _ => rfl⟩

theorem failure : Steady stops (Alternative.failure : Scan α) := by
  intro cs a rest hread
  cases hread

theorem ite {p : Prop} [Decidable p] {scan' : Scan α} (h : Steady stops scan)
    (h' : Steady stops scan') : Steady stops (if p then scan else scan') := by
  split
  · exact h
  · exact h'

theorem next : Steady stops next := by
  intro cs c rest hread
  cases cs with
  | nil => cases hread
  | cons d cs =>
    cases hread
    exact ⟨List.suffix_cons _ _, fun _ _ => rfl⟩

/-- A look at the next character is steady if it is no other at a stop than at the end. -/
theorem startsWith {p : Char → Bool} (hp : ∀ c, stops c → p c = false) :
    Steady stops (startsWith p) := by
  intro cs b rest hread
  cases cs with
  | cons d cs =>
    cases hread
    exact ⟨List.suffix_refl _, fun _ _ => rfl⟩
  | nil =>
    cases hread
    refine ⟨List.suffix_refl _, fun more hmore => ?_⟩
    cases more with
    | nil => rfl
    | cons c more =>
      change some (p c, c :: more) = _
      rw [hp c (hmore c rfl)]
      rfl

theorem digits (hstops : ∀ c, stops c → c.isDigit = false) (least : Nat) (most : Option Nat) :
    Steady stops (digits least most) := by
  intro cs ds rest hread
  rw [digits_apply] at hread
  dsimp only at hread
  split at hread
  · cases hread
  · next hleast =>
    cases hread
    refine ⟨List.drop_suffix _ _, fun more hmore => ?_⟩
    have hrun : (cs ++ more).takeWhile Char.isDigit = cs.takeWhile Char.isDigit :=
      takeWhile_append_of_head cs fun c hc => hstops c (hmore c hc)
    have htaken : (cs.takeWhile Char.isDigit).length ≤ cs.length :=
      (List.takeWhile_prefix _).length_le
    have hlength : (most.elim (cs.takeWhile Char.isDigit) (cs.takeWhile Char.isDigit).take).length ≤
        cs.length := by
      cases most with
      | none => exact htaken
      | some most => exact Nat.le_trans (List.length_take_le' most _) htaken
    rw [digits_apply]
    dsimp only
    rw [hrun, if_neg hleast, List.drop_append_of_le_length hlength]

theorem number (hstops : ∀ c, stops c → c.isDigit = false) (least : Nat) (most : Option Nat) :
    Steady stops (number least most) :=
  (digits hstops least most).bind fun _ => pure _

end Steady

end Colloquy.Text.Scan
