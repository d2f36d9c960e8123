import Colloquy.Proofs.Json.Printed

/-!
# Printed fields

A record that is printed member by member is read field by field: a member that is present as what
it was printed from, and a member that was left out as absent. Lists are read item by item.
-/

namespace Colloquy

namespace Json

section Members

variable {α : Type} (name other : String) (encode : α → Json)

theorem lookup_member? (a : Option α) :
    (member? name encode a).lookup other = if other == name then a.map encode else none := by
  cases a with
  | none => exact (ite_self none).symm
  | some a =>
    rw [member?, List.lookup_cons]
    cases other == name <;> rfl

@[simp] theorem nonEmpty_cons (item : α) (items : List α) :
    nonEmpty name encode (item :: items) = [(name, .list ((item :: items).map encode))] := rfl

theorem lookup_nonEmpty (items : List α) :
    (nonEmpty name encode items).lookup other =
      if other == name then (nonEmpty name encode items).lookup name else none := by
  cases items with
  | nil => exact (ite_self none).symm
  | cons item items =>
    rw [nonEmpty_cons, List.lookup_cons, List.lookup_cons, beq_self_eq_true]
    cases other == name <;> rfl

variable {name encode}

theorem legibleMembers_member? {a : Option α} (h : ∀ b ∈ a, (encode b).Legible) :
    LegibleMembers (member? name encode a) := by
  cases a with
  | none => trivial
  | some b => exact ⟨h b rfl, trivial⟩

end Members

section Items

variable {α β : Type} {items : List α} {encode : α → Json}

theorem legibleItems_map (h : ∀ a ∈ items, (encode a).Legible) :
    LegibleItems (items.map encode) := by
  induction items with
  | nil => trivial
  | cons item items ih =>
    rw [List.forall_mem_cons] at h
    exact ⟨h.1, ih h.2⟩

private theorem mapM_itemData {decoder : Datum → Option β} {reading : α → β}
    (h : ∀ a ∈ items, decoder (encode a).datum = some (reading a)) :
    (itemData (items.map encode)).mapM decoder = some (items.map reading) := by
  induction items with
  | nil => rfl
  | cons item items ih =>
    rw [List.forall_mem_cons] at h
    rw [List.map_cons, itemData, List.mapM_cons, h.1, ih h.2]
    rfl

/-- The items of a printed list are read one after another, where there is one more level than each
of them takes. -/
theorem list_datum {decoder : Decoder β} {reading : α → β} {rules : Datum.Rules} {levels : Nat}
    (hdepth : levels + 1 ≤ rules.depth)
    (h : ∀ a ∈ items, ∀ inner : Datum.Rules, levels ≤ inner.depth →
      decoder inner (encode a).datum = some (reading a)) :
    decoder.list rules (Json.list (items.map encode)).datum = some (items.map reading) := by
  obtain ⟨inner, hinner, hinside⟩ := inner?_of_lt hdepth
  rw [datum, Decoder.list, hinner]
  exact mapM_itemData fun a hmem => h a hmem inner hinside

theorem legibleMembers_nonEmpty (name : String) (h : ∀ a ∈ items, (encode a).Legible) :
    LegibleMembers (nonEmpty name encode items) := by
  cases items with
  | nil => trivial
  | cons item items => exact ⟨legibleItems_map h, trivial⟩

end Items

end Json

namespace Datum

open Json (Members memberData)

private theorem mapM_memberData (members : Members) :
    (memberData members).mapM (fun member => member.1.map (·, member.2)) =
      some (members.map fun member => (member.1, member.2.datum)) := by
  induction members with
  | nil => rfl
  | cons member members ih =>
    obtain ⟨name, value⟩ := member
    rw [memberData, List.mapM_cons, ih]
    rfl

/-- Whether a tree is the absent value. -/
def isNull : Datum → Bool
  | .null => true
  | _ => false

/-- The fields that are read from printed members. -/
def printed (inner : Rules) (members : Members) : Fields :=
  ⟨inner, members.map fun member => (member.1, member.2.datum)⟩

/-- The fields of a printed record are its members, if each is a field and none comes twice. -/
theorem fields?_memberData {names : List String} {members : Members} {rules inner : Rules}
    (hinner : rules.inner? = some inner) (hnames : (members.map (·.1)).Sublist names)
    (hnodup : names.Nodup) :
    (Datum.record (memberData members)).fields? names rules = some (printed inner members) := by
  have hknown : (members.map fun member => (member.1, member.2.datum)).filter
      (names.contains ·.1) = members.map fun member => (member.1, member.2.datum) := by
    refine List.filter_eq_self.mpr fun field hmem => ?_
    obtain ⟨member, hmember, rfl⟩ := List.mem_map.mp hmem
    exact List.contains_iff_mem.mpr (hnames.subset (List.mem_map_of_mem hmember))
  have honce : ((members.map fun member => (member.1, member.2.datum)).map (·.1)).Nodup := by
    rw [List.map_map]
    exact hnodup.sublist hnames
  rw [fields?, hinner]
  change Option.bind ((memberData members).mapM _) _ = _
  rw [mapM_memberData, Option.bind_some]
  dsimp only
  rw [hknown, if_pos honce]
  rfl

section Printed

variable {α : Type} (inner : Rules) (decoder : Decoder α) {members : Members} {name : String}
  {v : Json} {a : α}

private theorem lookup_printed (members : Members) (name : String) :
    (printed inner members).present.lookup name = (members.lookup name).map (·.datum) := by
  induction members with
  | nil => rfl
  | cons member members ih =>
    change ((member.1, member.2.datum) :: (printed inner members).present).lookup name = _
    rw [List.lookup_cons, List.lookup_cons, ih]
    split <;> rfl

theorem required_printed (hlookup : members.lookup name = some v)
    (hread : decoder inner v.datum = some a) :
    (printed inner members).required name decoder = some a := by
  rw [Fields.required, lookup_printed, hlookup]
  exact hread

theorem withDefault_printed (default : α) (hlookup : members.lookup name = some v)
    (hread : decoder inner v.datum = some a) :
    (printed inner members).withDefault name decoder default = some a := by
  rw [Fields.withDefault, lookup_printed, hlookup]
  exact hread

/-- A list that is left out when empty is read as it is printed, where its default is empty. -/
theorem withDefault_printed_nonEmpty {encode : α → Json} {items : List α}
    (hlookup : members.lookup name = (Json.nonEmpty name encode items).lookup name)
    (hread : Decoder.list decoder inner (Json.list (items.map encode)).datum = some items) :
    (printed inner members).withDefault name (Decoder.list decoder) [] = some items := by
  rw [Fields.withDefault, lookup_printed, hlookup]
  cases items with
  | nil => rfl
  | cons item items =>
    rw [Json.nonEmpty_cons, List.lookup_cons, beq_self_eq_true]
    exact hread

/-- A field that may be absent is read as it is printed, unless it is printed as null. -/
theorem optional_printed {encode : α → Json} {o : Option α}
    (hlookup : members.lookup name = o.map encode)
    (hread : ∀ a ∈ o, decoder inner (encode a).datum = some a) :
    (printed inner members).optional name decoder =
      some (o.filter fun a => !(encode a).datum.isNull) := by
  rw [Fields.optional, lookup_printed, hlookup]
  cases o with
  | none => rfl
  | some a =>
    have hread := hread a rfl
    rw [Option.map_some, Option.map_some, Option.filter]
    cases hdatum : (encode a).datum <;> rw [hdatum] at hread <;>
      simp only [isNull, Bool.not_true, Bool.not_false, Bool.false_eq_true, if_true, if_false]
    all_goals exact congrArg (some <$> ·) hread

/-- A text that may be absent is read as it is printed. -/
theorem optional_printed_text {s : Option String}
    (hlookup : members.lookup name = s.map .text) :
    (printed inner members).optional name Decoder.text = some s := by
  rw [optional_printed inner Decoder.text hlookup fun _ _ => rfl]
  cases s <;> rfl

end Printed

end Datum

end Colloquy
