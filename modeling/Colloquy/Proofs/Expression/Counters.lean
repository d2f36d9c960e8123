import Colloquy.Proofs.Expression.Calls
import Colloquy.Proofs.Expression.Readings

/-!
# The counters of the reader

The reader counts the tokens that it has taken and the levels that it has entered. At every moment of a
call the first counter stands between the one at its beginning and the number of the tokens, and the
second one counts, on top of its beginning, the waiting calls that went a level deeper; so it is back
where it was when the call is at its end, whatever it came to. On one level the calls wait in the order
of the grammar, so that the greatest level bounds them all.
-/

namespace Colloquy.Expression

/-- The rank of a routine: how many parts it may be the first part of. -/
def Routine.rank : Routine → Nat
  | sum => 0
  | product => 1
  | power => 2
  | operand => 3
  | atom => 4

theorem Routine.rank_le (routine : Routine) : routine.rank ≤ 4 := by
  cases routine <;> decide

/-- The routine whose call waits. -/
def Frame.routine : Frame → Routine
  | sum _ => .sum
  | product _ => .product
  | base | exponent _ => .power
  | bare | negated => .operand
  | group => .atom

/-- Calls of one level wait in the order of the grammar, below something of a rank. -/
def Stacked : Nat → List Frame → Prop
  | _, [] => True
  | rank, frame :: stack =>
    (frame.isDeeper = false → frame.routine.rank < rank) ∧ Stacked frame.routine.rank stack

theorem Stacked.mono {rank rank' : Nat} {stack : List Frame} (h : Stacked rank stack)
    (hle : rank ≤ rank') : Stacked rank' stack := by
  cases stack with
  | nil => trivial
  | cons frame stack => exact ⟨fun hframe => Nat.lt_of_lt_of_le (h.1 hframe) hle, h.2⟩

/-- On each level wait five calls at most. -/
theorem Stacked.length_le {rank : Nat} {stack : List Frame} (h : Stacked rank stack) :
    stack.length ≤ 5 * stack.countP Frame.isDeeper + rank := by
  induction stack generalizing rank with
  | nil => exact Nat.zero_le _
  | cons frame stack ih =>
    have hbehind := ih h.2
    rw [List.length_cons]
    cases hframe : frame.isDeeper with
    | false =>
      have hrank := h.1 hframe
      rw [List.countP_cons_of_neg (by simp [hframe])]
      omega
    | true =>
      have hrank := frame.routine.rank_le
      rw [List.countP_cons_of_pos hframe]
      omega

/-- What the counters say at a place among the tokens, while calls wait below something of a rank. -/
structure Counted (tokens : List Token) (first : Cursor) (rank : Nat) (place : Cursor)
    (stack : List Frame) : Prop where
  /-- Behind the tokens that were taken the others are left. -/
  rest : place.rest = tokens.drop place.taken
  /-- No more tokens were taken than there are. -/
  taken_le : place.taken ≤ tokens.length
  /-- No token was put back. -/
  le_taken : first.taken ≤ place.taken
  /-- The level counts the waiting calls that went deeper. -/
  level : place.level = first.level + stack.countP Frame.isDeeper
  /-- There is no deeper level than the greatest. -/
  level_le : place.level ≤ maxLevel
  /-- The calls wait in the order of the grammar. -/
  stacked : Stacked rank stack

/-- The rank below which the calls wait at a moment. -/
def Moment.rank (moment : Moment) : Nat :=
  match moment.task with
  | .call routine => routine.rank
  | .answer _ => 4

section Steps

variable {tokens rest : List Token} {token : Token} {first place : Cursor} {rank rank' : Nat}
  {frame : Frame} {stack : List Frame}

namespace Counted

theorem mono (h : Counted tokens first rank place stack) (hle : rank ≤ rank') :
    Counted tokens first rank' place stack :=
  { h with stacked := h.stacked.mono hle }

/-- A token is taken only where there is one. -/
theorem past (h : Counted tokens first rank place stack) (hrest : place.rest = token :: rest) :
    Counted tokens first rank (place.past rest) stack := by
  have hdrop : tokens.drop place.taken = token :: rest := h.rest.symm.trans hrest
  have hlength := congrArg List.length hdrop
  rw [List.length_drop, List.length_cons] at hlength
  refine { h with rest := ?_, taken_le := ?_, le_taken := Nat.le_succ_of_le h.le_taken }
  · change rest = tokens.drop (place.taken + 1)
    rw [← List.drop_drop, hdrop, List.drop_succ_cons, List.drop_zero]
  · change place.taken + 1 ≤ tokens.length
    omega

/-- A call that waits on its own level for a routine of a higher rank. -/
theorem wait (h : Counted tokens first rank place stack) (hframe : frame.isDeeper = false)
    (hle : rank ≤ frame.routine.rank) (hlt : frame.routine.rank < rank') :
    Counted tokens first rank' place (frame :: stack) := by
  refine { h with level := ?_, stacked := ⟨fun _ => hlt, h.stacked.mono hle⟩ }
  rw [List.countP_cons_of_neg (by simp [hframe]), h.level]

/-- A call that waits for one a level deeper. -/
theorem enter (h : Counted tokens first rank place stack) (hframe : frame.isDeeper = true)
    (hle : rank ≤ frame.routine.rank) (hlevel : place.level < maxLevel) :
    Counted tokens first rank' place.enter (frame :: stack) := by
  have hshallow : frame.isDeeper = false → frame.routine.rank < rank' := fun hnot => by
    simp [hframe] at hnot
  refine { h with level := ?_, level_le := hlevel, stacked := ⟨hshallow, h.stacked.mono hle⟩ }
  rw [List.countP_cons_of_pos hframe, Cursor.enter, h.level, Nat.add_assoc]

/-- A call that waited goes on where it was. -/
theorem back (h : Counted tokens first rank place (frame :: stack)) :
    Counted tokens first frame.routine.rank (frame.back place) stack := by
  have hlevel := h.level
  rw [Frame.back]
  cases hframe : frame.isDeeper with
  | false =>
    rw [List.countP_cons_of_neg (by simp [hframe])] at hlevel
    exact { h with level := hlevel, stacked := h.stacked.2 }
  | true =>
    rw [List.countP_cons_of_pos hframe] at hlevel
    refine { h with level := ?_, level_le := ?_, stacked := h.stacked.2 }
    · change place.level - 1 = _
      omega
    · exact Nat.le_trans (Nat.sub_le ..) h.level_le

end Counted

namespace Moment

/-- What the counters say at a moment. -/
def IsCounted (tokens : List Token) (first : Cursor) (moment : Moment) : Prop :=
  Counted tokens first moment.rank moment.place moment.stack

theorem isCounted_answer {value : Except Fault Float}
    (h : Counted tokens first rank place stack) (hle : rank ≤ 4) :
    IsCounted tokens first ⟨.answer value, place, stack⟩ :=
  h.mono hle

theorem isCounted_deepen {routine : Routine} (h : Counted tokens first rank place stack)
    (hframe : frame.isDeeper = true) (hle : rank ≤ frame.routine.rank) :
    IsCounted tokens first (deepen routine frame place stack) := by
  rw [deepen]
  split
  · exact isCounted_answer h (Nat.le_trans hle frame.routine.rank_le)
  · next hlevel => exact h.enter hframe hle (Nat.lt_of_not_le hlevel)

theorem isCounted_joined {operation? : Token → Option (Float → Float → Except Fault Float)}
    {routine : Routine} {frame : (Float → Except Fault Float) → Frame} {joint : Except Fault Float}
    (h : Counted tokens first rank place stack) (hframe : ∀ join, (frame join).isDeeper = false)
    (hle : ∀ join, rank ≤ (frame join).routine.rank)
    (hlt : ∀ join, (frame join).routine.rank < routine.rank) :
    IsCounted tokens first (joined operation? routine frame joint place stack) := by
  have hrank : rank ≤ 4 := Nat.le_trans (hle .ok) (frame .ok).routine.rank_le
  unfold joined goOn
  split
  · exact isCounted_answer h hrank
  · split
    · exact isCounted_answer h hrank
    · next hrest =>
      split
      · exact isCounted_answer h hrank
      · exact (h.past hrest).wait (hframe _) (hle _) (hlt _)

theorem isCounted_start {routine : Routine}
    (h : Counted tokens first routine.rank place stack) :
    IsCounted tokens first (start routine place stack) := by
  cases routine with
  | sum | product | power => exact h.wait rfl (Nat.le_refl _) (Nat.lt_succ_self _)
  | operand =>
    rw [start]
    split
    · next hrest => exact isCounted_deepen (h.past hrest) rfl (Nat.le_refl _)
    · exact h.wait rfl (Nat.le_refl _) (Nat.lt_succ_self _)
  | atom =>
    rw [start]
    split
    · exact isCounted_answer h (Nat.le_refl _)
    · next hrest => exact isCounted_answer (h.past hrest) (Nat.le_refl _)
    · next hrest => exact isCounted_deepen (h.past hrest) rfl (Nat.le_refl _)
    · next hrest => exact isCounted_answer (h.past hrest) (Nat.le_refl _)

theorem isCounted_resume {x : Float} (h : Counted tokens first frame.routine.rank place stack) :
    IsCounted tokens first (resume frame x place stack) := by
  have hrank := frame.routine.rank_le
  cases frame with
  | sum join | product join =>
    exact isCounted_joined h (fun _ => rfl) (fun _ => Nat.le_refl _) (fun _ => Nat.lt_succ_self _)
  | exponent | bare | negated => exact isCounted_answer h hrank
  | base =>
    rw [resume]
    split
    · next hrest => exact isCounted_deepen (h.past hrest) rfl (Nat.le_refl _)
    · exact isCounted_answer h hrank
  | group =>
    rw [resume]
    split
    · exact isCounted_answer h hrank
    · next hrest => exact isCounted_answer (h.past hrest) hrank
    · next hrest => exact isCounted_answer (h.past hrest) hrank

/-- What the counters say is so from moment to moment. -/
theorem IsCounted.next {moment next : Moment} (h : IsCounted tokens first moment)
    (hnext : moment.next? = some next) : IsCounted tokens first next := by
  obtain ⟨task, place, stack⟩ := moment
  cases task with
  | call routine =>
    cases hnext
    exact isCounted_start h
  | answer value =>
    cases stack with
    | nil => cases hnext
    | cons frame stack =>
      cases value with
      | error fault =>
        cases hnext
        exact isCounted_answer h.back frame.routine.rank_le
      | ok x =>
        cases hnext
        exact isCounted_resume h.back

theorem IsCounted.leads {moment last : Moment} (h : IsCounted tokens first moment)
    (hleads : moment.Leads last) : IsCounted tokens first last := by
  induction hleads with
  | refl => exact h
  | tail _ hstep ih => exact ih.next hstep

end Moment

end Steps

/-- A routine that gives a value has taken a token. -/
theorem Routine.length_lt_of_ok {routine : Routine} {c : Cursor} (hlevel : c.level ≤ maxLevel) {x : Float}
    (h : (routine.read c).value = .ok x) : (routine.read c).stop.rest.length < c.rest.length := by
  have hreads := reads_of_level_le c hlevel
  have hgives : (routine.read c).Gives x (routine.read c).stop := ⟨h, rfl⟩
  cases routine with
  | sum =>
    obtain ⟨p, hp, -⟩ := (hreads.sum x _).mp hgives
    exact hp.length_lt nofun nofun
  | product =>
    obtain ⟨p, hp, -⟩ := (hreads.product x _).mp hgives
    exact hp.length_lt nofun nofun
  | power =>
    obtain ⟨p, hp, -⟩ := (hreads.power x _).mp hgives
    exact hp.length_lt nofun nofun
  | operand =>
    obtain ⟨p, hp, -⟩ := (hreads.operand x _).mp hgives
    exact hp.length_lt nofun nofun
  | atom =>
    obtain ⟨p, hp, -⟩ := (hreads.atom x _).mp hgives
    exact hp.length_lt nofun nofun

/-- A call of a routine, with no more tokens taken than there are and on no deeper level than the
greatest, comes to its end with what the reader gives. There the level is that of its beginning, and the
tokens that were taken are no fewer, more if there is a value, and no more than there are. On the way the
level counts the waiting calls that went deeper and is never above the greatest, no token is taken
behind the last one, and the calls that wait are five for each level at most. -/
theorem Routine.read_counted (tokens : List Token) (routine : Routine) {taken level : Nat}
    (htaken : taken ≤ tokens.length) (hlevel : level ≤ maxLevel) :
    let first : Cursor := ⟨tokens.drop taken, taken, level⟩
    let part := routine.read first
    let last : Moment := ⟨.answer part.value, part.stop, []⟩
    (Moment.Leads ⟨.call routine, first, []⟩ last ∧ last.next? = none) ∧
      (part.stop.level = level ∧ part.stop.rest = tokens.drop part.stop.taken ∧
        taken ≤ part.stop.taken ∧ part.stop.taken ≤ tokens.length ∧
        ∀ x, part.value = .ok x → taken < part.stop.taken) ∧
      ∀ moment, Moment.Leads ⟨.call routine, first, []⟩ moment →
        moment.Leads last ∧
        moment.place.level = level + moment.stack.countP Frame.isDeeper ∧
        moment.place.level ≤ maxLevel ∧
        (∀ frame ∈ moment.stack, frame.isDeeper = true → level < moment.place.level) ∧
        moment.place.rest = tokens.drop moment.place.taken ∧
        taken ≤ moment.place.taken ∧ moment.place.taken ≤ tokens.length ∧
        moment.stack.length ≤ 5 * (maxLevel - level) + 4 := by
  intro first part last
  have hfirst : Moment.IsCounted tokens first ⟨.call routine, first, []⟩ :=
    ⟨rfl, htaken, Nat.le_refl _, rfl, hlevel, trivial⟩
  have hlast : Moment.Leads ⟨.call routine, first, []⟩ last := (Moment.told first).routine routine []
  have hend := hfirst.leads hlast
  refine ⟨⟨hlast, rfl⟩, ⟨hend.level, hend.rest, hend.le_taken, hend.taken_le, fun x hx => ?_⟩,
    fun moment hleads => ?_⟩
  · have hlength := Routine.length_lt_of_ok hlevel hx
    rw [hend.rest, List.length_drop, List.length_drop] at hlength
    change taken < last.place.taken
    omega
  · have hcounted := hfirst.leads hleads
    have hcount : moment.place.level = level + moment.stack.countP Frame.isDeeper := hcounted.level
    have hgreatest := hcounted.level_le
    have hlength := hcounted.stacked.length_le
    have hrank : moment.rank ≤ 4 := by
      rw [Moment.rank]
      split
      · exact Routine.rank_le _
      · exact Nat.le_refl _
    refine ⟨hlast.on_way rfl hleads, hcount, hgreatest, fun frame hmem hframe => ?_, hcounted.rest,
      hcounted.le_taken, hcounted.taken_le, ?_⟩
    · have hpos := List.countP_pos_iff.mpr ⟨frame, hmem, hframe⟩
      omega
    · omega

/-- At the greatest level a sum that begins with parentheses goes no deeper. -/
theorem Routine.read_counted_deepest :
    let tokens := List.replicate 200 Token.opening
    let first : Cursor := ⟨tokens.drop 1, 1, 128⟩
    1 ≤ tokens.length ∧ 128 ≤ maxLevel ∧ (Expression.sum first).stop.level = 128 ∧
      (Expression.sum first).stop.taken ≤ 200 ∧
      ∀ moment, Moment.Leads ⟨.call .sum, first, []⟩ moment →
        moment.place.level ≤ 128 ∧ moment.stack.length ≤ 4 := by
  intro tokens first
  have hlength : tokens.length = 200 := List.length_replicate
  have htaken : 1 ≤ tokens.length := by omega
  have hlevel : 128 ≤ maxLevel := Nat.le_refl _
  obtain ⟨-, ⟨hback, -, -, hlast, -⟩, hmoments⟩ := Routine.read_counted tokens .sum htaken hlevel
  refine ⟨htaken, hlevel, hback, hlength ▸ hlast, fun moment hleads => ?_⟩
  obtain ⟨-, -, hgreatest, -, -, -, -, hwaiting⟩ := hmoments moment hleads
  exact ⟨hgreatest, hwaiting⟩

end Colloquy.Expression
