import Colloquy.Proofs.Completion.Gathering

/-!
# The calls that fragments make

Whatever fragments are pushed, in whatever order and however those of different indices are mixed,
the calls that come out are told index by index. An index makes a call when one of its fragments
carries a name that is not empty. Its call has the first such name, the first id that is not empty
or else one made of the index, and all pieces of arguments one behind the other, those from before
the name and the id among them. The calls stand in the order of their indices, and what the
fragments of other indices are makes no difference to a call.
-/

namespace Colloquy

namespace Fragment

variable {index : UInt32} {fragments fragments' : List Fragment}

/-- Whether a fragment of an index carries a name. -/
def Named (index : UInt32) (fragments : List Fragment) : Prop :=
  ∃ fragment ∈ fragments, fragment.index = index ∧ ∃ name, fragment.name = some name ∧ name ≠ ""

/-- An index has a first name when one of its fragments carries a name. -/
theorem isSome_firstName_iff : (firstName index fragments).isSome ↔ Named index fragments := by
  rw [firstName, List.isSome_findSome?, List.any_eq_true]
  constructor
  · rintro ⟨fragment, hmem, hsome⟩
    obtain ⟨hmem, hindex⟩ := List.mem_filter.mp hmem
    obtain ⟨name, hname⟩ := Option.isSome_iff_exists.mp hsome
    obtain ⟨hname, hne⟩ := Option.filter_eq_some_iff.mp hname
    exact ⟨fragment, hmem, beq_iff_eq.mp hindex, name, hname, by simpa using hne⟩
  · rintro ⟨fragment, hmem, hindex, name, hname, hne⟩
    exact ⟨fragment, List.mem_filter.mpr ⟨hmem, beq_iff_eq.mpr hindex⟩, by simp [hname, hne]⟩

/-- What the fragments of an index come to is told by the fragments of the index alone. -/
theorem gathered_congr (h : ofIndex index fragments = ofIndex index fragments') :
    gathered index fragments = gathered index fragments' := by
  simp only [gathered, firstId, firstName, allArguments, h]

end Fragment

/-- A call as the fragments of an index make it. -/
structure IsCallOf (fragments : List Fragment) (index : UInt32) (call : ToolCall) : Prop where
  /-- It has the first name of the index. -/
  name : Fragment.firstName index fragments = some call.name
  /-- It has the first id of the index, or else one made of the index. -/
  id : call.id = (Fragment.firstId index fragments).getD ("call_" ++ toString index.toNat)
  /-- Its arguments are all pieces of the index. -/
  arguments : call.arguments = Fragment.allArguments index fragments

namespace Accumulator

variable {fragments : List Fragment}

/-- The indices whose calls have a name. -/
private def namedIndices (calls : List (UInt32 × PartialCall)) : List UInt32 :=
  (calls.filter (·.2.name.isSome)).map (·.1)

/-- Calls that are what the fragments come to are complete under the indices with a name. -/
private theorem forall₂_filterMap_finish? {calls : List (UInt32 × PartialCall)}
    (h : ∀ entry ∈ calls, entry.2 = Fragment.gathered entry.1 fragments) :
    List.Forall₂ (IsCallOf fragments) (namedIndices calls)
      (calls.filterMap fun (index, call) => call.finish? index) := by
  induction calls with
  | nil => exact .nil
  | cons entry rest ih =>
    obtain ⟨index, call⟩ := entry
    have hrest := ih fun entry hmem => h entry (List.mem_cons_of_mem _ hmem)
    have hcall : call = Fragment.gathered index fragments := h _ List.mem_cons_self
    subst hcall
    cases hname : (Fragment.gathered index fragments).name with
    | none =>
      have hindices : namedIndices ((index, Fragment.gathered index fragments) :: rest) =
          namedIndices rest := by
        simp [namedIndices, hname]
      have hdropped : (Fragment.gathered index fragments).finish? index = none := by
        rw [PartialCall.finish?, hname, Option.map_none]
      simp only [hindices, List.filterMap_cons, hdropped]
      exact hrest
    | some name =>
      have hindices : namedIndices ((index, Fragment.gathered index fragments) :: rest) =
          index :: namedIndices rest := by
        simp [namedIndices, hname]
      have hkept : (Fragment.gathered index fragments).finish? index =
          some ⟨(Fragment.firstId index fragments).getD ("call_" ++ toString index.toNat), name,
            Fragment.allArguments index fragments⟩ := by
        rw [PartialCall.finish?, hname]
        rfl
      simp only [hindices, List.filterMap_cons, hkept]
      exact .cons ⟨hname, rfl, rfl⟩ hrest

/-- The calls of fragments are told index by index: in the order of the indices, each index with a
name makes exactly one call, of its own fragments, and there are no others. Fragments that are the
same for each index, in the same order there, make the same calls. -/
theorem finish_pushAll_indexed (fragments : List Fragment) :
    (∃ indices : List UInt32, indices.Pairwise (· < ·) ∧
      (∀ index, index ∈ indices ↔ Fragment.Named index fragments) ∧
      List.Forall₂ (IsCallOf fragments) indices (empty.pushAll fragments).finish) ∧
    ∀ fragments' : List Fragment,
      (∀ index, Fragment.ofIndex index fragments' = Fragment.ofIndex index fragments) →
        (empty.pushAll fragments').finish = (empty.pushAll fragments).finish := by
  have hgathers := gathers_pushAll fragments
  refine ⟨⟨namedIndices (empty.pushAll fragments).calls, ?_, fun index => ?_, ?_⟩, ?_⟩
  · exact List.pairwise_map.mpr (hgathers.ordered.filter _)
  · rw [← Fragment.isSome_firstName_iff, namedIndices, List.mem_map]
    constructor
    · rintro ⟨⟨index, call⟩, hmem, rfl⟩
      obtain ⟨hmem, hname⟩ := List.mem_filter.mp hmem
      obtain ⟨-, rfl⟩ := (hgathers.mem_iff _ _).mp hmem
      exact hname
    · intro hname
      have hmem := (hgathers.mem_iff index _).mpr ⟨Fragment.exists_of_gathered_name hname, rfl⟩
      exact ⟨_, List.mem_filter.mpr ⟨hmem, hname⟩, rfl⟩
  · exact forall₂_filterMap_finish? fun entry hmem => ((hgathers.mem_iff _ _).mp hmem).2
  · intro fragments' hsame
    exact finish_pushAll_congr fun index => Fragment.gathered_congr (hsame index)

/-- Fragments of two calls and of a nameless one, mixed: names and ids that are empty or come too
late do not count, and pieces from before the name do. -/
example :
    (empty.pushAll [⟨7, some "", none, some "\x7b"⟩, ⟨2, none, some "clock", none⟩,
      ⟨7, some "a", some "", some "\"x\":"⟩, ⟨4, some "b", none, some "[]"⟩,
      ⟨7, some "c", some "weather", some "1\x7d"⟩, ⟨7, none, some "other", none⟩]).finish =
        [⟨"call_2", "clock", ""⟩, ⟨"a", "weather", "\x7b\"x\":1\x7d"⟩] := by
  decide +kernel

end Accumulator

end Colloquy
