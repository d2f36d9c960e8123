import Colloquy.Proofs.Keyed
import Mathlib.Data.List.Nodup
import Mathlib.Data.List.Pairwise
import Mathlib.Data.List.Perm.Basic

/-!
# The order of use

A store keeps what it has in an order of its own, and sorts it by the time of last use when it is
asked. If no two times are the same, that is a list in which what is used comes to the front.
-/

namespace Colloquy

/-- A list of items, no two of which have one key, in the order of their last use. -/
structure InUseOrder {α κ : Type} (key : α → κ) (Newer : α → α → Prop) (items sorted : List α) :
    Prop where
  perm : sorted.Perm items
  newer : sorted.Pairwise Newer
  nodup : (sorted.map key).Nodup

namespace InUseOrder

variable {α κ : Type} {key : α → κ} {Newer : α → α → Prop} {items sorted : List α}

theorem nil : InUseOrder key Newer [] [] :=
  ⟨.nil, .nil, .nil⟩

theorem mem_iff (h : InUseOrder key Newer items sorted) {a : α} : a ∈ sorted ↔ a ∈ items :=
  h.perm.mem_iff

theorem map_nodup (h : InUseOrder key Newer items sorted) : (items.map key).Nodup :=
  (h.perm.map key).nodup_iff.mp h.nodup

section Keys

variable [DecidableEq κ]

/-- The order does not matter to a search by key. -/
theorem find?_eq (h : InUseOrder key Newer items sorted) (k : κ) :
    sorted.find? (key · == k) = items.find? (key · == k) := by
  ext a
  rw [find?_key_eq_some_iff h.nodup, find?_key_eq_some_iff h.map_nodup, h.mem_iff]

/-- An item that is used anew comes to the front, and one with its key goes. -/
theorem moved (h : InUseOrder key Newer items sorted) {items' : List α} {a : α}
    (hperm : items'.Perm (a :: items.filter (key · != key a)))
    (hnewer : ∀ b ∈ items, Newer a b) :
    InUseOrder key Newer items' (a :: sorted.filter (key · != key a)) := by
  refine ⟨((h.perm.filter _).cons a).trans hperm.symm, ?_, ?_⟩
  · refine .cons ?_ (h.newer.filter _)
    intro b hmem
    exact hnewer b (h.mem_iff.mp (List.mem_of_mem_filter hmem))
  · rw [List.map_cons, List.nodup_cons]
    refine ⟨?_, h.nodup.sublist (List.filter_sublist.map key)⟩
    intro hmem
    obtain ⟨b, hb, hkey⟩ := List.mem_map.mp hmem
    simpa [hkey] using (List.mem_filter.mp hb).2

/-- An item of a new key comes to the front. -/
theorem added (h : InUseOrder key Newer items sorted) {a : α} (hkey : ∀ b ∈ items, key b ≠ key a)
    (hnewer : ∀ b ∈ items, Newer a b) : InUseOrder key Newer (items ++ [a]) (a :: sorted) := by
  have hperm : (items ++ [a]).Perm (a :: items.filter (key · != key a)) := by
    rw [filter_key_ne hkey]
    exact List.perm_append_singleton a items
  have hmoved := h.moved hperm hnewer
  rwa [filter_key_ne fun b hmem => hkey b (h.mem_iff.mp hmem)] at hmoved

end Keys

/-- Of two items one is newer. -/
private theorem newer_or_newer (h : InUseOrder key Newer items sorted) {a b : α} (ha : a ∈ sorted)
    (hb : b ∈ sorted) (hne : a ≠ b) : Newer a b ∨ Newer b a := by
  have hpairwise : sorted.Pairwise fun a b => Newer a b ∨ Newer b a := h.newer.imp .inl
  have hsymm : Std.Symm fun a b => Newer a b ∨ Newer b a := ⟨fun _ _ => Or.symm⟩
  exact hpairwise.forall ha hb hne

/-- Sorting brings the items that are asked for in the order of their use. -/
theorem mergeSort_filter (h : InUseOrder key Newer items sorted) (le : α → α → Bool)
    (htrans : ∀ a b c, le a b = true → le b c = true → le a c = true)
    (htotal : ∀ a b, (le a b || le b a) = true) (hle : ∀ a b, Newer a b → le b a = false)
    (p : α → Bool) : (items.filter p).mergeSort le = sorted.filter p := by
  have hperm : ((items.filter p).mergeSort le).Perm (sorted.filter p) :=
    (List.mergeSort_perm _ le).trans (h.perm.filter p).symm
  have hsorted : (sorted.filter p).Pairwise fun a b => le a b = true := by
    refine (h.newer.filter p).imp ?_
    intro a b hnewer
    simpa [hle a b hnewer] using htotal a b
  refine List.Perm.eq_of_pairwise ?_ (List.pairwise_mergeSort htrans htotal _) hsorted hperm
  intro a b ha hb hab hba
  by_contra hne
  have hmem := List.mem_of_mem_filter (hperm.mem_iff.mp ha)
  obtain hnewer | hnewer := h.newer_or_newer hmem (List.mem_of_mem_filter hb) hne
  · rw [hle a b hnewer] at hba
    cases hba
  · rw [hle b a hnewer] at hab
    cases hab

end InUseOrder

end Colloquy
