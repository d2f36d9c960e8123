import Mathlib.Data.List.Induction
import Mathlib.Data.List.Nodup

/-!
# Items with keys

Lists of items of which each has a key. If no two have the same one, what is found by a key is the item
that has it. Where an item takes the place of the one with its key, a key finds the last item that came
with it.
-/

namespace Colloquy

variable {α κ : Type} [DecidableEq κ] {key : α → κ} {items : List α}

/-- Nothing is lost when only a key goes that is not there. -/
theorem filter_key_ne {k : κ} (hkey : ∀ a ∈ items, key a ≠ k) :
    items.filter (key · != k) = items := by
  rw [List.filter_eq_self]
  intro a hmem
  simpa using hkey a hmem

theorem find?_key_eq_some_iff (hnodup : (items.map key).Nodup) {a : α} {k : κ} :
    items.find? (key · == k) = some a ↔ a ∈ items ∧ key a = k := by
  constructor
  · intro hfound
    exact ⟨List.mem_of_find?_eq_some hfound, by simpa using List.find?_some hfound⟩
  · rintro ⟨hmem, rfl⟩
    obtain ⟨b, hfound⟩ : ∃ b, items.find? (key · == key a) = some b := by
      rw [← Option.isSome_iff_exists, List.find?_isSome]
      exact ⟨a, hmem, by simp⟩
    have hkey : key b = key a := by simpa using List.find?_some hfound
    rw [hfound, List.inj_on_of_nodup_map hnodup (List.mem_of_find?_eq_some hfound) hmem hkey]

/-- One item has the key of any of them, if no two have the same one. -/
theorem filter_key_eq (hnodup : (items.map key).Nodup) {a : α} (hmem : a ∈ items) :
    (items.filter fun item => key item = key a) = [a] := by
  induction items with
  | nil => cases hmem
  | cons item items ih =>
    obtain ⟨hfresh, hnodup⟩ := List.nodup_cons.mp hnodup
    obtain rfl | hmem := List.mem_cons.mp hmem
    · rw [List.filter_cons_of_pos (by simp), List.filter_eq_nil_iff.mpr]
      intro other hother hsame
      exact hfresh (of_decide_eq_true hsame ▸ List.mem_map_of_mem hother)
    · have hother : key item ≠ key a := fun hsame => hfresh (hsame ▸ List.mem_map_of_mem hmem)
      rw [List.filter_cons_of_neg (by simpa using hother), ih hnodup hmem]

/-- An item that comes last, in place of the one with its key, is what is found by its key. -/
theorem find?_filter_key_ne_concat (items : List α) (a : α) (k : κ) :
    (items.filter (key · != key a) ++ [a]).find? (key · == k) =
      if key a = k then some a else items.find? (key · == k) := by
  rw [List.find?_append, List.find?_filter]
  split
  · next h =>
    have hnone : items.find? (fun b => decide ((key b != key a) = true ∧ (key b == k) = true)) =
        none := by
      simp [h]
    rw [hnone, Option.none_or]
    exact List.find?_cons_of_pos (by simpa using h)
  · next h =>
    have hsame : (fun b => decide ((key b != key a) = true ∧ (key b == k) = true)) =
        (key · == k) := by
      funext b
      by_cases hb : key b = k <;> simp [hb, Ne.symm h]
    rw [hsame, List.find?_cons_of_neg (by simpa using h), List.find?_nil, Option.or_none]

/-- The keys stay different when an item comes last in place of the one with its key. -/
theorem nodup_filter_key_ne_concat (hnodup : (items.map key).Nodup) (a : α) :
    ((items.filter (key · != key a) ++ [a]).map key).Nodup := by
  rw [List.map_append, List.map_singleton, List.nodup_append]
  refine ⟨hnodup.sublist (List.filter_sublist.map key), List.nodup_singleton _, ?_⟩
  intro k hmem k' hlast heq
  obtain ⟨b, hb, rfl⟩ := List.mem_map.mp hmem
  obtain rfl := List.mem_singleton.mp hlast
  simpa [heq] using (List.mem_filter.mp hb).2

/-- The last item that has a key is the one at the end, if it has it. -/
theorem findRev?_key_concat (items : List α) (a : α) (k : κ) :
    (items ++ [a]).findRev? (key · == k) =
      if key a = k then some a else items.findRev? (key · == k) := by
  rw [List.findRev?_eq_find?_reverse, List.reverse_concat, List.findRev?_eq_find?_reverse]
  split
  · next h => exact List.find?_cons_of_pos (by simpa using h)
  · next h => exact List.find?_cons_of_neg (by simpa using h)

/-- An item that is the last one with its key is among the items. -/
theorem mem_of_findRev?_key {a : α} {k : κ} (h : items.findRev? (key · == k) = some a) :
    a ∈ items ∧ key a = k := by
  rw [List.findRev?_eq_find?_reverse] at h
  exact ⟨List.mem_reverse.mp (List.mem_of_find?_eq_some h), by simpa using List.find?_some h⟩

theorem exists_findRev?_key_eq_some {a : α} (h : a ∈ items) :
    ∃ b, items.findRev? (key · == key a) = some b := by
  rw [List.findRev?_eq_find?_reverse, ← Option.isSome_iff_exists, List.find?_isSome]
  exact ⟨a, List.mem_reverse.mpr h, by simp⟩

/-- Items that are put one after another, each in the place of the one with its key, leave under a key
the last one that has it. -/
theorem find_foldl_eq_findRev? {τ : Type} {put : τ → α → τ} {find : τ → κ → Option α} {empty : τ}
    (hempty : ∀ k, find empty k = none)
    (hput : ∀ table a k, find (put table a) k = if key a = k then some a else find table k)
    (items : List α) (k : κ) : find (items.foldl put empty) k = items.findRev? (key · == k) := by
  induction items using List.reverseRecOn with
  | nil => exact hempty k
  | append_singleton items a ih =>
    rw [List.foldl_append, List.foldl_cons, List.foldl_nil, hput, ih, findRev?_key_concat]

end Colloquy
