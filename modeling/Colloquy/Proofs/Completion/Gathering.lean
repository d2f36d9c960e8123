import Colloquy.Completion.Accumulator
import Mathlib.Data.List.Induction
import Mathlib.Data.List.Sort

/-!
# What fragments come to

The calls of a completion told of all its fragments at once. Of each index, only three things count:
the first id and the first name that are not empty, and the pieces of the arguments one behind the
other. Fragments that agree in these for every index make the same calls, in whatever pieces and in
whatever order of the indices they arrive.
-/

namespace Colloquy

namespace Fragment

variable (index : UInt32) (fragments : List Fragment)

/-- The fragments of an index. -/
def ofIndex : List Fragment :=
  fragments.filter (·.index == index)

/-- The first id of an index that is not empty. -/
def firstId : Option String :=
  (ofIndex index fragments).findSome? fun fragment => fragment.id.filter (!·.isEmpty)

/-- The first name of an index that is not empty. -/
def firstName : Option String :=
  (ofIndex index fragments).findSome? fun fragment => fragment.name.filter (!·.isEmpty)

/-- The pieces of the arguments of an index, one behind the other. -/
def allArguments : String :=
  String.join ((ofIndex index fragments).map (·.arguments.getD ""))

/-- What the fragments of an index come to. -/
def gathered : PartialCall :=
  ⟨firstId index fragments, firstName index fragments, allArguments index fragments⟩

variable {index fragments}

private theorem ofIndex_concat_self {fragment : Fragment} (h : fragment.index = index) :
    ofIndex index (fragments ++ [fragment]) = ofIndex index fragments ++ [fragment] := by
  simp [ofIndex, h]

private theorem ofIndex_concat_other {fragment : Fragment} (h : fragment.index ≠ index) :
    ofIndex index (fragments ++ [fragment]) = ofIndex index fragments := by
  simp [ofIndex, h]

/-- One more fragment of an index is pushed onto what there is of it. -/
theorem gathered_concat_self {fragment : Fragment} (h : fragment.index = index) :
    gathered index (fragments ++ [fragment]) = (gathered index fragments).push fragment := by
  simp [gathered, firstId, firstName, allArguments, ofIndex_concat_self h, PartialCall.push,
    PartialCall.firstText, List.findSome?_append]

/-- A fragment of another index changes nothing. -/
theorem gathered_concat_other {fragment : Fragment} (h : fragment.index ≠ index) :
    gathered index (fragments ++ [fragment]) = gathered index fragments := by
  simp only [gathered, firstId, firstName, allArguments, ofIndex_concat_other h]

/-- Of an index without fragments, nothing is known. -/
theorem gathered_of_absent (h : ∀ fragment ∈ fragments, fragment.index ≠ index) :
    gathered index fragments = .empty := by
  have hnone : ofIndex index fragments = [] := by
    rw [ofIndex, List.filter_eq_nil_iff]
    simpa using h
  simp only [gathered, firstId, firstName, allArguments, hnone]
  rfl

/-- An index with a name has fragments. -/
theorem exists_of_gathered_name (h : (gathered index fragments).name.isSome) :
    ∃ fragment ∈ fragments, fragment.index = index := by
  by_contra hnone
  rw [gathered_of_absent fun fragment hmem hindex => hnone ⟨fragment, hmem, hindex⟩] at h
  cases h

end Fragment

namespace Accumulator

/-- Calls in the order of their indices, which differ. -/
def Ordered (calls : List (UInt32 × PartialCall)) : Prop :=
  calls.Pairwise (·.1 < ·.1)

/-- Calls in order are told by which calls they are. -/
theorem Ordered.eq_of_mem_iff {calls calls' : List (UInt32 × PartialCall)} (h : Ordered calls)
    (h' : Ordered calls') (hmem : ∀ entry, entry ∈ calls ↔ entry ∈ calls') : calls = calls' := by
  have : Std.Irrefl fun entry other : UInt32 × PartialCall => entry.1 < other.1 :=
    ⟨fun entry => UInt32.lt_irrefl entry.1⟩
  have : Std.Antisymm fun entry other : UInt32 × PartialCall => entry.1 < other.1 :=
    ⟨fun entry other hlt hgt => absurd hlt (UInt32.lt_asymm hgt)⟩
  exact List.Pairwise.eq_of_mem_iff h h' hmem

section PushInto

variable {fragment : Fragment} {calls : List (UInt32 × PartialCall)}

/-- A call behind a push is one from before under another index, or the one of the fragment's
index. -/
private theorem fst_of_mem_pushInto {entry : UInt32 × PartialCall}
    (h : entry ∈ pushInto fragment calls) : entry.1 = fragment.index ∨ entry ∈ calls := by
  induction calls with
  | nil =>
    obtain rfl := List.mem_singleton.mp h
    exact .inl rfl
  | cons first rest ih =>
    obtain ⟨index, call⟩ := first
    rw [pushInto] at h
    split at h
    · obtain rfl | hmem := List.mem_cons.mp h
      · exact .inl rfl
      · exact .inr hmem
    · split at h
      · next hsame =>
        obtain rfl | hmem := List.mem_cons.mp h
        · exact .inl hsame.symm
        · exact .inr (List.mem_cons_of_mem _ hmem)
      · obtain rfl | hmem := List.mem_cons.mp h
        · exact .inr List.mem_cons_self
        · exact (ih hmem).imp_right (List.mem_cons_of_mem _)

theorem Ordered.pushInto (h : Ordered calls) (fragment : Fragment) :
    Ordered (pushInto fragment calls) := by
  induction calls with
  | nil => exact List.pairwise_singleton _ _
  | cons first rest ih =>
    obtain ⟨index, call⟩ := first
    have hrest := List.pairwise_cons.mp h
    rw [Accumulator.pushInto]
    split
    · next hbefore =>
      refine List.pairwise_cons.mpr ⟨?_, h⟩
      intro entry hmem
      obtain rfl | hmem := List.mem_cons.mp hmem
      · exact hbefore
      · exact UInt32.lt_trans hbefore (hrest.1 entry hmem)
    · split
      · exact List.pairwise_cons.mpr hrest
      · next hnot hne =>
        refine List.pairwise_cons.mpr ⟨?_, ih hrest.2⟩
        intro entry hmem
        obtain hself | hmem := fst_of_mem_pushInto hmem
        · rw [hself]
          exact UInt32.lt_of_le_of_ne (UInt32.not_lt.mp hnot) (Ne.symm hne)
        · exact hrest.1 entry hmem

/-- What stands under other indices is left as it was. -/
private theorem mem_pushInto_other {index : UInt32} (hother : fragment.index ≠ index)
    (call : PartialCall) : (index, call) ∈ pushInto fragment calls ↔ (index, call) ∈ calls := by
  induction calls with
  | nil => simp [pushInto, Ne.symm hother]
  | cons first rest ih =>
    obtain ⟨index', call'⟩ := first
    rw [pushInto]
    split
    · simp [Ne.symm hother]
    · split
      · next hsame =>
        have hne : index ≠ index' := fun h => hother (hsame.trans h.symm)
        simp [hne]
      · rw [List.mem_cons, List.mem_cons, ih]

/-- Under the index of the fragment stands the call that it was pushed onto. -/
private theorem mem_pushInto_self (h : Ordered calls) (call : PartialCall) :
    (fragment.index, call) ∈ pushInto fragment calls ↔
      (∃ old, (fragment.index, old) ∈ calls ∧ call = old.push fragment) ∨
        (∀ old, (fragment.index, old) ∉ calls) ∧ call = PartialCall.empty.push fragment := by
  induction calls with
  | nil => simp [pushInto]
  | cons first rest ih =>
    obtain ⟨index, first⟩ := first
    obtain ⟨hfirst, hrest⟩ := List.pairwise_cons.mp h
    have habsent (hle : fragment.index ≤ index) (old : PartialCall) :
        (fragment.index, old) ∉ rest :=
      fun hmem => absurd (hfirst _ hmem) (UInt32.not_lt.mpr hle)
    rw [pushInto]
    split
    · next hbefore =>
      have hne : fragment.index ≠ index := UInt32.ne_of_lt hbefore
      have hnone := habsent (UInt32.le_of_lt hbefore)
      simp [hne, hnone]
    · split
      · next hsame =>
        have hnone := habsent (UInt32.le_of_eq hsame)
        simp [hsame, hsame ▸ hnone]
      · next hne =>
        rw [List.mem_cons, ih hrest]
        simp [hne]

end PushInto

/-- Calls that are what fragments come to: in order, one under each index that the fragments have. -/
structure Gathers (fragments : List Fragment) (calls : List (UInt32 × PartialCall)) : Prop where
  /-- They are in order. -/
  ordered : Ordered calls
  /-- Under each index stands what its fragments come to. -/
  mem_iff : ∀ index call, (index, call) ∈ calls ↔
    (∃ fragment ∈ fragments, fragment.index = index) ∧ call = Fragment.gathered index fragments

/-- A fragment that is pushed counts behind the others. -/
private theorem Gathers.push {fragments : List Fragment} {calls : List (UInt32 × PartialCall)}
    (h : Gathers fragments calls) (fragment : Fragment) :
    Gathers (fragments ++ [fragment]) (pushInto fragment calls) := by
  refine ⟨h.ordered.pushInto fragment, fun index call => ?_⟩
  by_cases hindex : fragment.index = index
  · subst hindex
    rw [mem_pushInto_self h.ordered, Fragment.gathered_concat_self rfl]
    have hsome : ∃ other ∈ fragments ++ [fragment], other.index = fragment.index :=
      ⟨fragment, by simp, rfl⟩
    simp only [h.mem_iff, hsome, true_and]
    by_cases hknown : ∃ other ∈ fragments, other.index = fragment.index
    · simp [hknown]
    · have hnone : ∀ other ∈ fragments, other.index ≠ fragment.index :=
        fun other hmem hsame => hknown ⟨other, hmem, hsame⟩
      simp [hknown, Fragment.gathered_of_absent hnone]
  · rw [mem_pushInto_other hindex, Fragment.gathered_concat_other hindex, h.mem_iff]
    simp [or_and_right, exists_or, hindex]

/-- Fragments that are pushed one after another are gathered. -/
theorem gathers_pushAll (fragments : List Fragment) :
    Gathers fragments (empty.pushAll fragments).calls := by
  induction fragments using List.reverseRecOn with
  | nil => exact ⟨List.Pairwise.nil, by simp [pushAll, empty]⟩
  | append_singleton fragments fragment ih =>
    rw [pushAll_append]
    exact ih.push fragment

/-- The calls that have a name. -/
private def named (calls : List (UInt32 × PartialCall)) : List (UInt32 × PartialCall) :=
  calls.filter (·.2.name.isSome)

private theorem finish_eq (accumulator : Accumulator) :
    accumulator.finish =
      (named accumulator.calls).filterMap fun entry => entry.2.finish? entry.1 := by
  rw [finish, named, List.filterMap_filter]
  refine List.filterMap_congr fun entry _ => ?_
  cases hname : entry.2.name with
  | none => simp [PartialCall.finish?, hname]
  | some name => simp

/-- Fragments make the same calls when they come to the same for every index. -/
theorem finish_pushAll_congr {fragments fragments' : List Fragment}
    (h : ∀ index, Fragment.gathered index fragments = Fragment.gathered index fragments') :
    (empty.pushAll fragments).finish = (empty.pushAll fragments').finish := by
  have hgathers := gathers_pushAll fragments
  have hgathers' := gathers_pushAll fragments'
  have hnamed : named (empty.pushAll fragments).calls = named (empty.pushAll fragments').calls := by
    refine Ordered.eq_of_mem_iff (hgathers.ordered.filter _) (hgathers'.ordered.filter _) ?_
    rintro ⟨index, call⟩
    simp only [named, List.mem_filter, hgathers.mem_iff, hgathers'.mem_iff, h index]
    constructor
    · rintro ⟨⟨-, rfl⟩, hname⟩
      exact ⟨⟨Fragment.exists_of_gathered_name hname, rfl⟩, hname⟩
    · rintro ⟨⟨-, rfl⟩, hname⟩
      have hname' : (Fragment.gathered index fragments).name.isSome := by rwa [h index]
      exact ⟨⟨Fragment.exists_of_gathered_name hname', rfl⟩, hname⟩
  rw [finish_eq, finish_eq, hnamed]

end Accumulator

end Colloquy
