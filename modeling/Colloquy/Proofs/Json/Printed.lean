import Colloquy.Proofs.Json.Scalars

/-!
# Printed values

A printed value is read as the tree that it is, wherever it stands, and the tree is decoded as the
value. What this takes of a value is said of its parts: integers have 64 bits, doubles are read from
their own texts, members are in order, and no more levels are nested than the reader admits.
-/

namespace Colloquy.Json

section Trees

mutual
/-- The tree that a printed value is read as. -/
def datum : Json → Datum
  | .null => .null
  | .bool b => .bool b
  | .integer n => .integer n
  | .double x => .float x
  | .single x => .float x.toFloat
  | .text s => .text s
  | .list items => .list (itemData items)
  | .record members => .record (memberData members)
termination_by structural v => v
/-- The trees of the items of a list. -/
def itemData : List Json → List Datum
  | [] => []
  | item :: rest => datum item :: itemData rest
termination_by structural items => items
/-- The trees of the members of a record. -/
def memberData : List (String × Json) → List (Option String × Datum)
  | [] => []
  | (name, member) :: rest => (some name, datum member) :: memberData rest
termination_by structural members => members
end

mutual
/-- Every number of the value is read from its own text; this is no question for an integer of 64
bits. Numbers of single precision are read as double ones. -/
def Legible : Json → Prop
  | .integer n => -(Word.count 63 : Int) ≤ n ∧ n < Word.count 64
  | .double x => read? (print (.double x)) = some (.double x)
  | .single _ => False
  | .list items => LegibleItems items
  | .record members => LegibleMembers members
  | _ => True
termination_by structural v => v
/-- Every item is legible. -/
def LegibleItems : List Json → Prop
  | [] => True
  | item :: rest => Legible item ∧ LegibleItems rest
termination_by structural items => items
/-- Every member is legible. -/
def LegibleMembers : List (String × Json) → Prop
  | [] => True
  | (_, member) :: rest => Legible member ∧ LegibleMembers rest
termination_by structural members => members
end

mutual
/-- The members of every record are in strict order of their names. -/
def Ordered : Json → Prop
  | .list items => OrderedItems items
  | .record members => (members.map (·.1)).Pairwise (· < ·) ∧ OrderedMembers members
  | _ => True
termination_by structural v => v
/-- Every item is ordered. -/
def OrderedItems : List Json → Prop
  | [] => True
  | item :: rest => Ordered item ∧ OrderedItems rest
termination_by structural items => items
/-- Every member is ordered. -/
def OrderedMembers : List (String × Json) → Prop
  | [] => True
  | (_, member) :: rest => Ordered member ∧ OrderedMembers rest
termination_by structural members => members
end

mutual
/-- How many levels of lists and records are nested in a value. -/
def depth : Json → Nat
  | .list items => itemsDepth items + 1
  | .record members => membersDepth members + 1
  | _ => 0
termination_by structural v => v
/-- The greatest number of levels in an item. -/
def itemsDepth : List Json → Nat
  | [] => 0
  | item :: rest => max (depth item) (itemsDepth rest)
termination_by structural items => items
/-- The greatest number of levels in a member. -/
def membersDepth : List (String × Json) → Nat
  | [] => 0
  | (_, member) :: rest => max (depth member) (membersDepth rest)
termination_by structural members => members
end

theorem legibleMembers_append {members rest : Members} :
    LegibleMembers (members ++ rest) ↔ LegibleMembers members ∧ LegibleMembers rest := by
  induction members with
  | nil => exact (iff_of_eq (true_and _)).symm
  | cons member members ih => rw [List.cons_append, LegibleMembers, LegibleMembers, ih, and_assoc]

theorem membersDepth_append (members rest : Members) :
    membersDepth (members ++ rest) = max (membersDepth members) (membersDepth rest) := by
  induction members with
  | nil => exact (Nat.zero_max _).symm
  | cons member members ih => rw [List.cons_append, membersDepth, membersDepth, ih, Nat.max_assoc]

end Trees

section Reading

variable {more : List Char}

/-- What begins a value and is neither a blank nor the end of a list. -/
private def Begins (c : Char) : Prop :=
  isSpace c = false ∧ c ≠ ']'

private theorem begins_of_numeral {c : Char} (h : c = '-' ∨ c.isDigit = true) : Begins c := by
  refine ⟨Bool.eq_false_iff.mpr fun hspace => ?_, ?_⟩
  · simp only [isSpace, Bool.or_eq_true, beq_iff_eq] at hspace
    obtain ((rfl | rfl) | rfl) | rfl := hspace <;> exact absurd h (by decide)
  · rintro rfl
    exact absurd h (by decide)

private theorem dropWhile_of_begins {c : Char} (h : Begins c) (cs : List Char) :
    (c :: cs).dropWhile isSpace = c :: cs :=
  List.dropWhile_cons_of_neg (by rw [h.1]; decide)

/-- A value that is a numeral is read as such. -/
private theorem value_numeral {cs : List Char} {read : Numeral} (h : numeral cs = some (read, []))
    (hmore : ∀ c ∈ more.head?, Mark c) (fuel : Nat) :
    value (fuel + 1) (cs ++ more) = some (read.datum, more) := by
  obtain ⟨c, cs, rfl, hhead⟩ := exists_head_of_numeral h
  have hread : numeral (c :: (cs ++ more)) = some (read, more) :=
    (steady_numeral _ _ _ h).2 more hmore
  rw [value, List.cons_append, dropWhile_of_begins (begins_of_numeral hhead)]
  split
  case h_7 =>
    rw [hread]
    rfl
  all_goals
    next heq =>
      cases heq
      exact absurd hhead (by decide)

/-- A printed value begins as a value does. -/
private theorem exists_head {v : Json} (h : v.Legible) : ∃ c cs, v.chars = c :: cs ∧ Begins c := by
  have hnumeral : ∀ {cs read}, numeral cs = some (read, []) → ∃ c cs', cs = c :: cs' ∧ Begins c :=
    fun hread =>
      let ⟨c, cs, hcs, hhead⟩ := exists_head_of_numeral hread
      ⟨c, cs, hcs, begins_of_numeral hhead⟩
  cases v with
  | null => exact ⟨_, _, rfl, rfl, by decide⟩
  | bool b => cases b <;> exact ⟨_, _, rfl, rfl, by decide⟩
  | integer n =>
    obtain ⟨read, hread, -⟩ := numeral_integer h.1 h.2
    exact hnumeral hread
  | double x =>
    obtain ⟨-, read, hread, -⟩ := numeral_double h
    exact hnumeral hread
  | single x => exact h.elim
  | text s => exact ⟨_, _, rfl, rfl, by decide⟩
  | list items => cases items <;> exact ⟨_, _, rfl, rfl, by decide⟩
  | record members => cases members <;> exact ⟨_, _, rfl, rfl, by decide⟩

private theorem mark_behindItem (items : List Json) (more : List Char) :
    ∀ c ∈ (charsBehindItem items ++ more).head?, Mark c := by
  cases items with
  | nil => exact fun c hc => .inr (.inl (Option.some.inj hc).symm)
  | cons item rest => exact fun c hc => .inl (Option.some.inj hc).symm

private theorem mark_behindMember (members : List (String × Json)) (more : List Char) :
    ∀ c ∈ (charsBehindMember members ++ more).head?, Mark c := by
  cases members with
  | nil => exact fun c hc => .inr (.inr (Option.some.inj hc).symm)
  | cons member rest => exact fun c hc => .inl (Option.some.inj hc).symm

section Steps

variable {fuel : Nat} {cs rest : List Char} {d : Datum} {name : Option String}

private theorem value_text {s : String} (h : quotedText cs = some (some s, rest)) :
    value (fuel + 1) ('"' :: cs) = some (.text s, rest) := by
  change (quotedText cs).bind (fun read => some (read.1.elim Datum.unreadable .text, read.2)) = _
  rw [h]
  rfl

private theorem value_list {c : Char} (hc : Begins c) {ds : List Datum}
    (h : items fuel (c :: cs) = some (ds, rest)) :
    value (fuel + 1) ('[' :: c :: cs) = some (.list ds, rest) := by
  have hopen : Begins '[' := ⟨rfl, by decide⟩
  simp only [value, dropWhile_of_begins hopen, dropWhile_of_begins hc]
  split
  · next heq =>
    cases heq
    exact absurd rfl hc.2
  · rw [h]
    rfl

private theorem value_record {ms : List (Option String × Datum)}
    (h : members fuel ('"' :: cs) = some (ms, rest)) :
    value (fuel + 1) ('\x7b' :: '"' :: cs) = some (.record ms, rest) := by
  change (members fuel ('"' :: cs)).bind (fun read => some (Datum.record read.1, read.2)) = _
  rw [h]
  rfl

private theorem items_last (h : value fuel cs = some (d, ']' :: rest)) :
    items (fuel + 1) cs = some ([d], rest) := by
  rw [items, h]
  rfl

private theorem items_next (h : value fuel cs = some (d, ',' :: rest)) :
    items (fuel + 1) cs = (items fuel rest).bind fun read => some (d :: read.1, read.2) := by
  rw [items, h]
  rfl

private theorem members_last {behind : List Char}
    (hname : quotedText cs = some (name, ':' :: behind))
    (h : value fuel behind = some (d, '\x7d' :: rest)) :
    members (fuel + 1) ('"' :: cs) = some ([(name, d)], rest) := by
  change (quotedText cs).bind _ = _
  rw [hname]
  change (value fuel behind).bind _ = _
  rw [h]
  rfl

private theorem members_next {behind : List Char}
    (hname : quotedText cs = some (name, ':' :: behind))
    (h : value fuel behind = some (d, ',' :: rest)) :
    members (fuel + 1) ('"' :: cs) =
      (members fuel rest).bind fun read => some ((name, d) :: read.1, read.2) := by
  change (quotedText cs).bind _ = _
  rw [hname]
  change (value fuel behind).bind _ = _
  rw [h]
  rfl

end Steps

private theorem length_behindItem (items : List Json) : 0 < (charsBehindItem items).length := by
  cases items <;> exact Nat.succ_pos _

mutual
/-- A printed value is read as its tree in as many steps as its text has characters, twice over. -/
theorem value_chars : ∀ v : Json, v.Legible → ∀ fuel, 2 * v.chars.length ≤ fuel + 1 →
    ∀ more, (∀ c ∈ more.head?, Mark c) → value (fuel + 1) (v.chars ++ more) = some (v.datum, more)
  | .null, _, _, _, _, _ => rfl
  | .bool true, _, _, _, _, _ => rfl
  | .bool false, _, _, _, _, _ => rfl
  | .integer n, h, fuel, _, more, hmore => by
    obtain ⟨read, hread, hdatum⟩ := numeral_integer h.1 h.2
    rw [datum, ← hdatum]
    exact value_numeral hread hmore fuel
  | .double x, h, fuel, _, more, hmore => by
    obtain ⟨-, read, hread, hdatum⟩ := numeral_double h
    rw [datum, ← hdatum]
    exact value_numeral hread hmore fuel
  | .single _, h, _, _, _, _ => h.elim
  | .text s, _, fuel, _, more, _ => by
    rw [chars, quotedChars, List.cons_append, List.cons_append, List.append_assoc]
    exact value_text (quotedText_flatMap s more)
  | .list [], _, _, _, _, _ => rfl
  | .list (item :: rest), h, fuel, hfuel, more, _ => by
    rw [chars, List.length_cons] at hfuel
    have hread := items_chars item rest h fuel (by omega) more
    obtain ⟨c, cs, hitem, hc⟩ := exists_head (v := item) h.1
    rw [chars, List.cons_append, List.append_assoc]
    rw [hitem, List.cons_append] at hread ⊢
    exact value_list hc hread
  | .record [], _, _, _, _, _ => rfl
  | .record ((name, member) :: rest), h, fuel, hfuel, more, _ => by
    rw [chars, List.length_cons] at hfuel
    have hread := members_chars name member rest h fuel (by omega) more
    rw [chars, List.cons_append, List.append_assoc, List.cons_append, List.append_assoc]
    exact value_record hread
termination_by _ _ fuel => fuel + 1
/-- The items of a printed list are read as their trees. -/
theorem items_chars : ∀ (item : Json) (rest : List Json), LegibleItems (item :: rest) →
    ∀ fuel, 2 * (item.chars ++ charsBehindItem rest).length ≤ fuel → ∀ more,
    items fuel (item.chars ++ (charsBehindItem rest ++ more)) =
      some (itemData (item :: rest), more)
  | item, rest, h, fuel, hfuel, more => by
    have hbehind := length_behindItem rest
    rw [List.length_append] at hfuel
    obtain ⟨fuel, rfl⟩ : ∃ steps, fuel = steps + 2 := ⟨fuel - 2, by omega⟩
    have hitem := value_chars item h.1 fuel (by omega) _ (mark_behindItem rest more)
    cases rest with
    | nil => exact items_last hitem
    | cons next rest =>
      rw [charsBehindItem, List.length_cons] at hfuel
      rw [charsBehindItem, List.cons_append, List.append_assoc] at hitem ⊢
      rw [items_next hitem, items_chars next rest h.2 (fuel + 1) (by omega) more]
      rfl
termination_by _ _ _ fuel => fuel
/-- The members of a printed record are read as their trees. -/
theorem members_chars : ∀ (name : String) (member : Json) (rest : List (String × Json)),
    LegibleMembers ((name, member) :: rest) → ∀ fuel,
    2 * (quotedChars name ++ ':' :: (member.chars ++ charsBehindMember rest)).length ≤ fuel →
    ∀ more,
    members fuel (quotedChars name ++ ':' :: (member.chars ++ (charsBehindMember rest ++ more))) =
      some (memberData ((name, member) :: rest), more)
  | name, member, rest, h, fuel, hfuel, more => by
    simp only [quotedChars, List.length_append, List.length_cons] at hfuel
    obtain ⟨fuel, rfl⟩ : ∃ steps, fuel = steps + 2 := ⟨fuel - 2, by omega⟩
    have hname := quotedText_flatMap name
      (':' :: (member.chars ++ (charsBehindMember rest ++ more)))
    have hmember := value_chars member h.1 fuel (by omega) _ (mark_behindMember rest more)
    rw [quotedChars, List.cons_append, List.cons_append, List.append_assoc, List.singleton_append]
    cases rest with
    | nil => exact members_last hname hmember
    | cons other rest =>
      obtain ⟨other, next⟩ := other
      rw [charsBehindMember, List.length_cons] at hfuel
      rw [charsBehindMember, List.cons_append, List.append_assoc, List.cons_append,
        List.append_assoc] at hname hmember ⊢
      rw [members_next hname hmember, members_chars other next rest h.2 (fuel + 1) (by omega) more]
      rfl
termination_by _ _ _ _ fuel => fuel
end

/-- A text that is a printed value is read as its tree. -/
theorem datum?_print {v : Json} (h : v.Legible) : datum? v.print = some v.datum := by
  have hvalue := value_chars v h (2 * v.chars.length + 1) (by omega) [] (fun _ hc => nomatch hc)
  rw [List.append_nil] at hvalue
  rw [datum?, print, String.toList_ofList]
  change (value (2 * v.chars.length + 2) v.chars).bind _ = _
  rw [hvalue]
  rfl

end Reading

section Decoding

/-- A member behind all others is put there. -/
private theorem insert_of_lt {members : Members} {name : String} (value : Json)
    (h : ∀ other ∈ members.map (·.1), other < name) :
    members.insert name value = members ++ [(name, value)] := by
  induction members with
  | nil => rfl
  | cons member rest ih =>
    obtain ⟨other, old⟩ := member
    rw [List.map_cons, List.forall_mem_cons] at h
    have hlater : ¬ name < other := String.lt_asymm h.1
    have hother : name ≠ other := fun heq => String.lt_irrefl name (heq ▸ h.1)
    rw [Members.insert, if_neg hlater, if_neg hother, ih h.2]
    rfl

/-- Members in strict order of their names are sorted. -/
private theorem sorted_of_pairwise {members : Members}
    (h : (members.map (·.1)).Pairwise (· < ·)) : members.sorted = members := by
  have hfold : ∀ (rest before : Members), ((before ++ rest).map (·.1)).Pairwise (· < ·) →
      rest.foldl (fun sorted member => sorted.insert member.1 member.2) before =
        before ++ rest := by
    intro rest
    induction rest with
    | nil => exact fun before _ => (List.append_nil before).symm
    | cons member rest ih =>
      intro before hpairwise
      have hlast : ∀ other ∈ before.map (·.1), other < member.1 := by
        rw [List.map_append, List.pairwise_append] at hpairwise
        exact fun other hmem => hpairwise.2.2 other hmem member.1 (List.mem_cons_self ..)
      rw [List.foldl_cons, insert_of_lt member.2 hlast, ih _ (by simpa using hpairwise),
        List.append_assoc]
      rfl
  exact hfold members [] h

/-- Where levels are left, one more may be entered. -/
theorem inner?_of_lt {rules : Datum.Rules} {n : Nat} (h : n + 1 ≤ rules.depth) :
    ∃ inner, rules.inner? = some inner ∧ n ≤ inner.depth := by
  refine ⟨{ rules with depth := rules.depth - 1 }, if_neg (by omega), ?_⟩
  exact Nat.le_sub_of_add_le h

/-- A level that is entered takes one of those that are left. -/
private theorem depth_of_inner? {rules inner : Datum.Rules} (h : rules.inner? = some inner) :
    rules.depth = inner.depth + 1 := by
  rw [Datum.Rules.inner?] at h
  split at h
  · cases h
  · cases h
    exact (Nat.succ_pred_eq_of_ne_zero ‹_›).symm

mutual
/-- The tree of an ordered value is decoded as the value where it has no more levels than the rules
admit. -/
theorem decode_datum : ∀ v : Json, v.Legible → v.Ordered → ∀ rules : Datum.Rules,
    v.depth ≤ rules.depth → decode rules v.datum = some v
  | .null, _, _, _, _ => rfl
  | .bool _, _, _, _, _ => rfl
  | .integer _, _, _, _, _ => rfl
  | .double x, h, _, rules, _ => by
    obtain ⟨hfinite, -⟩ := numeral_double h
    rw [datum, decode, if_pos hfinite]
  | .single _, h, _, _, _ => h.elim
  | .text _, _, _, _, _ => rfl
  | .list items, h, hordered, rules, hdepth => by
    obtain ⟨inner, hinner, hdepth⟩ := inner?_of_lt hdepth
    rw [datum, decode, hinner]
    dsimp only
    rw [decodeItems_itemData items h hordered inner hdepth]
    rfl
  | .record members, h, hordered, rules, hdepth => by
    obtain ⟨inner, hinner, hdepth⟩ := inner?_of_lt hdepth
    rw [datum, decode, hinner]
    dsimp only
    rw [decodeMembers_memberData members h hordered.2 inner hdepth]
    change some (Json.record (Members.sorted members)) = _
    rw [sorted_of_pairwise hordered.1]
/-- The trees of the items of a list are decoded as the items. -/
theorem decodeItems_itemData : ∀ items : List Json, LegibleItems items → OrderedItems items →
    ∀ rules : Datum.Rules, itemsDepth items ≤ rules.depth →
    decodeItems rules (itemData items) = some items
  | [], _, _, _, _ => rfl
  | item :: rest, h, hordered, rules, hdepth => by
    obtain ⟨hitem, hrest⟩ := Nat.max_le.mp hdepth
    rw [itemData, decodeItems, decode_datum item h.1 hordered.1 rules hitem,
      decodeItems_itemData rest h.2 hordered.2 rules hrest]
    rfl
/-- The trees of the members of a record are decoded as the members. -/
theorem decodeMembers_memberData : ∀ members : List (String × Json), LegibleMembers members →
    OrderedMembers members → ∀ rules : Datum.Rules, membersDepth members ≤ rules.depth →
    decodeMembers rules (memberData members) = some members
  | [], _, _, _, _ => rfl
  | (name, member) :: rest, h, hordered, rules, hdepth => by
    obtain ⟨hmember, hrest⟩ := Nat.max_le.mp hdepth
    rw [memberData, decodeMembers, decode_datum member h.1 hordered.1 rules hmember,
      decodeMembers_memberData rest h.2 hordered.2 rules hrest]
    rfl
end

mutual
/-- The tree of a value with more levels than the rules admit is not decoded. -/
theorem decode_datum_of_lt : ∀ (v : Json) (rules : Datum.Rules), rules.depth < v.depth →
    decode rules v.datum = none
  | .null, _, h => absurd h (Nat.not_lt_zero _)
  | .bool _, _, h => absurd h (Nat.not_lt_zero _)
  | .integer _, _, h => absurd h (Nat.not_lt_zero _)
  | .double _, _, h => absurd h (Nat.not_lt_zero _)
  | .single _, _, h => absurd h (Nat.not_lt_zero _)
  | .text _, _, h => absurd h (Nat.not_lt_zero _)
  | .list items, rules, h => by
    rw [datum, decode]
    cases hinner : rules.inner? with
    | none => rfl
    | some inner =>
      rw [depth, depth_of_inner? hinner] at h
      dsimp only
      rw [decodeItems_itemData_of_lt items inner (Nat.lt_of_succ_lt_succ h)]
      rfl
  | .record members, rules, h => by
    rw [datum, decode]
    cases hinner : rules.inner? with
    | none => rfl
    | some inner =>
      rw [depth, depth_of_inner? hinner] at h
      dsimp only
      rw [decodeMembers_memberData_of_lt members inner (Nat.lt_of_succ_lt_succ h)]
      rfl
/-- The trees of the items of a list are not decoded if one has more levels than the rules admit. -/
theorem decodeItems_itemData_of_lt : ∀ (items : List Json) (rules : Datum.Rules),
    rules.depth < itemsDepth items → decodeItems rules (itemData items) = none
  | [], _, h => absurd h (Nat.not_lt_zero _)
  | item :: rest, rules, h => by
    rw [itemsDepth] at h
    rw [itemData, decodeItems]
    obtain hitem | hrest : rules.depth < item.depth ∨ rules.depth < itemsDepth rest := by omega
    · rw [decode_datum_of_lt item rules hitem]
      rfl
    · rw [decodeItems_itemData_of_lt rest rules hrest]
      cases decode rules item.datum <;> rfl
/-- The trees of the members of a record are not decoded if one has more levels than the rules
admit. -/
theorem decodeMembers_memberData_of_lt : ∀ (members : List (String × Json))
    (rules : Datum.Rules), rules.depth < membersDepth members →
    decodeMembers rules (memberData members) = none
  | [], _, h => absurd h (Nat.not_lt_zero _)
  | (name, member) :: rest, rules, h => by
    rw [membersDepth] at h
    rw [memberData, decodeMembers]
    obtain hmember | hrest : rules.depth < member.depth ∨ rules.depth < membersDepth rest := by
      omega
    · rw [decode_datum_of_lt member rules hmember]
      rfl
    · rw [decodeMembers_memberData_of_lt rest rules hrest]
      cases decode rules member.datum <;> rfl
end

/-- A value with more levels than are admitted is not read from its text. -/
theorem read?_print_of_lt {v : Json} (h : v.Legible) (hdepth : rules.depth < v.depth) :
    read? v.print = none := by
  rw [read?, readAs?, datum?_print h]
  exact decode_datum_of_lt v rules hdepth

/-- A value is read from its text. -/
theorem read?_print {v : Json} (h : v.Legible) (hordered : v.Ordered)
    (hdepth : v.depth ≤ rules.depth) : read? v.print = some v := by
  rw [read?, readAs?, datum?_print h]
  exact decode_datum v h hordered rules hdepth

end Decoding

section Records

/-- A numeral is no record. -/
private theorem datum_ne_record (read : Numeral) (written : List (Option String × Datum)) :
    read.datum ≠ .record written := by
  rw [Numeral.datum]
  grind

/-- A record is decoded from a record. -/
private theorem exists_of_decode_record {rules : Datum.Rules} {d : Datum} {members : Members}
    (h : decode rules d = some (.record members)) : ∃ written, d = .record written := by
  cases d with
  | record written => exact ⟨written, rfl⟩
  | float x =>
    rw [decode] at h
    split at h <;> cases h
  | list items =>
    rw [decode] at h
    split at h
    · cases h
    · obtain ⟨_, -, hread⟩ := Option.map_eq_some_iff.mp h
      cases hread
  | _ => cases h

/-- The text of a value that is no record does not begin with a brace. -/
private theorem dropWhile_chars_ne {v : Json} (h : ∀ members, v ≠ .record members)
    (behind : List Char) : v.chars.dropWhile isSpace ≠ '\x7b' :: behind := by
  have hnumeric : ∀ {cs : List Char}, (∀ c ∈ cs, Numeric c) →
      cs.dropWhile isSpace ≠ '\x7b' :: behind := by
    intro cs hcs hbrace
    have hmem : '\x7b' ∈ cs := by
      refine (List.dropWhile_suffix isSpace).subset ?_
      rw [hbrace]
      exact List.mem_cons_self
    exact absurd (hcs _ hmem) (by simp [Numeric])
  cases v with
  | null => exact hnumeric (numeric_of_all (by decide))
  | bool b => cases b <;> exact hnumeric (numeric_of_all (by decide))
  | integer n => exact hnumeric (numeric_toString n)
  | double x => exact hnumeric (numeric_doubleText x)
  | single x => exact hnumeric (numeric_singleText x)
  | text s => rintro ⟨⟩
  | list items => cases items <;> rintro ⟨⟩
  | record members => exact absurd rfl (h members)

/-- From the text of a value that is no record, none is read. -/
theorem read?_print_ne_record {v : Json} (h : ∀ members, v ≠ .record members)
    (members : Members) : read? v.print ≠ some (.record members) := by
  intro hread
  obtain ⟨d, hdatum, hdecode⟩ := Option.bind_eq_some_iff.mp hread
  obtain ⟨written, rfl⟩ := exists_of_decode_record hdecode
  obtain ⟨⟨d, rest⟩, hvalue, hend⟩ := Option.bind_eq_some_iff.mp hdatum
  rw [print, String.toList_ofList] at hvalue
  dsimp only at hend
  split at hend
  · cases hend
    obtain ⟨behind, _, hbrace, -⟩ | ⟨read, -, hdatum⟩ | ⟨hother, -⟩ := value_cases hvalue
    · exact dropWhile_chars_ne h behind hbrace
    · exact datum_ne_record read written hdatum
    · exact hother written rfl
  · cases hend

end Records

end Colloquy.Json
