import Mathlib.Data.List.Forall2

/-!
# Attempts one behind the other

Attempts that are made one behind the other come to an answer when each of them does, whatever their
faults are turned into. When one of them fails, those behind it are not made.
-/

namespace Colloquy

variable {α β ε ε' : Type}

theorem bind_eq_ok_iff {first : Except ε α} {next : α → Except ε β} {b : β} :
    first >>= next = .ok b ↔ ∃ a, first = .ok a ∧ next a = .ok b := by
  constructor
  · intro h
    cases first with
    | error fault => cases h
    | ok a => exact ⟨a, rfl, h⟩
  · rintro ⟨a, rfl, h⟩
    exact h

theorem bind_eq_error_iff {first : Except ε α} {next : α → Except ε β} {fault : ε} :
    first >>= next = .error fault ↔
      first = .error fault ∨ ∃ a, first = .ok a ∧ next a = .error fault := by
  cases first <;> simp [bind, Except.bind]

theorem mapError_eq_ok_iff {attempt : Except ε α} {reword : ε → ε'} {a : α} :
    attempt.mapError reword = .ok a ↔ attempt = .ok a := by
  unfold Except.mapError
  cases attempt <;> simp

theorem mapError_eq_error_iff {attempt : Except ε α} {reword : ε → ε'} {fault : ε'} :
    attempt.mapError reword = .error fault ↔
      ∃ found, attempt = .error found ∧ reword found = fault := by
  unfold Except.mapError
  cases attempt <;> simp

section Items

variable {read : α → Except ε β} {items : List α}

/-- Items are read together when each of them is read. -/
theorem mapM_eq_ok_iff {results : List β} :
    items.mapM read = .ok results ↔ List.Forall₂ (fun a b => read a = .ok b) items results := by
  induction items generalizing results with
  | nil =>
    rw [List.mapM_nil, List.forall₂_nil_left_iff]
    exact ⟨fun h => (Except.ok.inj h).symm, fun h => congrArg Except.ok h.symm⟩
  | cons item items ih =>
    rw [List.mapM_cons, List.forall₂_cons_left_iff, bind_eq_ok_iff]
    constructor
    · rintro ⟨b, hitem, hbehind⟩
      obtain ⟨rest, hrest, hresults⟩ := bind_eq_ok_iff.mp hbehind
      exact ⟨b, rest, hitem, ih.mp hrest, (Except.ok.inj hresults).symm⟩
    · rintro ⟨b, rest, hitem, hrest, rfl⟩
      exact ⟨b, hitem, bind_eq_ok_iff.mpr ⟨rest, ih.mpr hrest, rfl⟩⟩

/-- Items of which each is read well are read well together. -/
theorem mapM_eq_ok {result : α → β} (h : ∀ a ∈ items, read a = .ok (result a)) :
    items.mapM read = .ok (items.map result) := by
  rw [mapM_eq_ok_iff, List.forall₂_map_right_iff, List.forall₂_same]
  exact h

/-- Items that are all read keep what reading keeps of each. -/
theorem map_of_mapM_eq_ok {γ : Type} {f : α → γ} {g : β → γ}
    (hread : ∀ a b, read a = .ok b → g b = f a) {results : List β}
    (h : items.mapM read = .ok results) : results.map g = items.map f := by
  have hmaps : List.Forall₂ Eq (results.map g) (items.map f) := by
    rw [List.forall₂_map_left_iff, List.forall₂_map_right_iff]
    exact (mapM_eq_ok_iff.mp h).flip.imp fun b a hab => hread a b hab
  rwa [List.forall₂_eq_eq_eq] at hmaps

/-- Two ways of reading that agree on the items one by one agree on all of them. -/
theorem map_mapM_of_forall₂ {α' γ : Type} {f : β → γ} {read' : α' → Except ε γ} {items' : List α'}
    (h : List.Forall₂ (fun a a' => (read a).map f = read' a') items items') :
    (items.mapM read).map (·.map f) = items'.mapM read' := by
  induction h with
  | nil => rfl
  | @cons item item' items items' hitem _ ih =>
    rw [List.mapM_cons, List.mapM_cons, ← hitem, ← ih]
    cases read item with
    | error fault => rfl
    | ok b => cases items.mapM read <;> rfl

/-- Items that are not read together have the fault of the first of them that is not read. -/
theorem mapM_eq_error_iff {fault : ε} :
    items.mapM read = .error fault ↔
      ∃ before item behind, items = before ++ item :: behind ∧
        (∀ a ∈ before, ∃ b, read a = .ok b) ∧ read item = .error fault := by
  induction items with
  | nil =>
    rw [List.mapM_nil]
    exact ⟨nofun, fun ⟨before, item, behind, hitems, _⟩ => by simp at hitems⟩
  | cons first items ih =>
    have hrest : ∀ b, (items.mapM read >>= fun rest => pure (b :: rest)) = .error fault ↔
        items.mapM read = .error fault := by
      intro b
      rw [bind_eq_error_iff]
      exact or_iff_left (fun ⟨_, _, h⟩ => nomatch h)
    rw [List.mapM_cons, bind_eq_error_iff]
    simp only [hrest, ih]
    constructor
    · rintro (hfirst | ⟨b, hfirst, before, item, behind, rfl, hbefore, hitem⟩)
      · exact ⟨[], first, items, rfl, fun _ hmem => absurd hmem List.not_mem_nil, hfirst⟩
      · exact ⟨first :: before, item, behind, rfl,
          List.forall_mem_cons.mpr ⟨⟨b, hfirst⟩, hbefore⟩, hitem⟩
    · rintro ⟨before, item, behind, hitems, hbefore, hitem⟩
      cases before with
      | nil =>
        obtain ⟨rfl, -⟩ := List.cons.inj hitems
        exact .inl hitem
      | cons other before =>
        obtain ⟨rfl, rfl⟩ := List.cons.inj hitems
        obtain ⟨⟨b, hfirst⟩, hbefore⟩ := List.forall_mem_cons.mp hbefore
        exact .inr ⟨b, hfirst, before, item, behind, rfl, hbefore, hitem⟩

/-- Items are read together exactly if each of them can be read. -/
theorem exists_mapM_eq_ok_iff :
    (∃ results, items.mapM read = .ok results) ↔ ∀ a ∈ items, ∃ b, read a = .ok b := by
  constructor
  · rintro ⟨results, hread⟩ a hmem
    obtain ⟨place, hplace, rfl⟩ := List.getElem_of_mem hmem
    obtain ⟨hlength, hall⟩ := List.forall₂_iff_get.mp (mapM_eq_ok_iff.mp hread)
    exact ⟨_, hall place hplace (hlength ▸ hplace)⟩
  · intro hall
    cases hread : items.mapM read with
    | ok results => exact ⟨results, rfl⟩
    | error fault =>
      obtain ⟨before, item, behind, rfl, -, hitem⟩ := mapM_eq_error_iff.mp hread
      obtain ⟨b, hb⟩ := hall item (List.mem_append_right _ List.mem_cons_self)
      cases hb.symm.trans hitem

/-- Items that are read as they are remain together what they are. -/
theorem mapM_eq_ok_self {read : α → Except ε α} (h : ∀ a ∈ items, read a = .ok a) :
    items.mapM read = .ok items := by
  have hall : items.mapM read = .ok (items.map id) := mapM_eq_ok h
  rwa [List.map_id] at hall

end Items

end Colloquy
