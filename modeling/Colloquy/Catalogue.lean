/-!
# Catalogues

Values that are looked up by texts. A value that comes under a key takes the place of the one before
it. Nothing is told of an order among the keys.
-/

namespace Colloquy

/-- Values under keys. -/
structure Catalogue (α : Type) where
  /-- The keys with their values, in no order that means anything. -/
  entries : List (String × α)
  /-- No key has two values. -/
  nodup : (entries.map (·.1)).Nodup

namespace Catalogue

variable {α : Type}

/-- The catalogue without values. -/
def empty : Catalogue α :=
  ⟨[], .nil⟩

/-- The value under a key. -/
def get? (catalogue : Catalogue α) (key : String) : Option α :=
  (catalogue.entries.find? fun entry => entry.1 == key).map (·.2)

/-- Whether there is a value under a key. -/
def contains (catalogue : Catalogue α) (key : String) : Bool :=
  catalogue.entries.any fun entry => entry.1 == key

/-- How many values there are. -/
def size (catalogue : Catalogue α) : Nat :=
  catalogue.entries.length

/-- The other keys stay different from one another and from the one whose value comes anew. -/
private theorem nodup_insert (catalogue : Catalogue α) (key : String) (a : α) :
    (((key, a) :: catalogue.entries.filter fun entry => entry.1 != key).map (·.1)).Nodup := by
  rw [List.map_cons, List.nodup_cons]
  constructor
  · simp
  · exact catalogue.nodup.sublist (List.filter_sublist.map _)

/-- Puts a value under a key, in place of the one that stands there. -/
def insert (catalogue : Catalogue α) (key : String) (a : α) : Catalogue α :=
  ⟨(key, a) :: catalogue.entries.filter fun entry => entry.1 != key, catalogue.nodup_insert key a⟩

/-- The keys are those under which there is a value. -/
theorem contains_iff_mem {catalogue : Catalogue α} {key : String} :
    catalogue.contains key = true ↔ key ∈ catalogue.entries.map (·.1) := by
  simp [contains]

theorem contains_eq_isSome_get? (catalogue : Catalogue α) (key : String) :
    catalogue.contains key = (catalogue.get? key).isSome := by
  rw [contains, get?, Option.isSome_map, Bool.eq_iff_iff, List.any_eq_true, List.find?_isSome]

/-- A value that is put under a key stands there, and nothing else changes. -/
@[simp] theorem get?_insert (catalogue : Catalogue α) (key : String) (a : α) (other : String) :
    (catalogue.insert key a).get? other = if key = other then some a else catalogue.get? other := by
  rw [get?, insert]
  split
  · next h => rw [List.find?_cons_of_pos (by simpa using h), Option.map_some]
  · next h =>
    have hkept : (fun entry : String × α =>
        decide ((entry.1 != key) = true ∧ (entry.1 == other) = true)) =
        fun entry => entry.1 == other := by
      funext entry
      by_cases hother : entry.1 = other <;> simp [hother, Ne.symm h]
    rw [List.find?_cons_of_neg (by simpa using h), List.find?_filter, hkept, get?]

/-- A key that a value is put under is there, and the others are there that were there before. -/
@[simp] theorem contains_insert (catalogue : Catalogue α) (key : String) (a : α) (other : String) :
    (catalogue.insert key a).contains other = (key == other || catalogue.contains other) := by
  rw [contains_eq_isSome_get?, get?_insert, contains_eq_isSome_get?]
  by_cases h : key = other <;> simp [h]

end Catalogue

end Colloquy
