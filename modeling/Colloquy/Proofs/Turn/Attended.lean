import Colloquy.Proofs.Course
import Colloquy.Turn.Listener

/-!
# Heedful programs with a steady listener

For a listener who stays, a heedful program is what is left of it when every look finds the listener
there. Its courses are told by the parts that it is made of: a guard disappears, an attempt asks its
one question, and an interruption is always the fault of an attempt.
-/

namespace Colloquy

/-- A question of a turn and its answer. -/
abbrev TurnExchange := Program.Exchange Effect.Answer

/-- A piece of text that was delivered. -/
def TurnExchange.piece (s : String) : TurnExchange :=
  ⟨.deliver (.ok s), ()⟩

/-- A fault that was delivered. -/
def TurnExchange.report (fault : Fault) : TurnExchange :=
  ⟨.deliver (.error fault), ()⟩

theorem HeedfulProgram.attended_bind {α β : Type} (p : HeedfulProgram α)
    (f : α → HeedfulProgram β) :
    attended (p >>= f) = attended p >>= fun a => attended (f a) := by
  induction p with
  | done a => rfl
  | ask inquiry next ih =>
    cases inquiry with
    | perform effect => exact congrArg (Program.ask effect) (funext ih)
    | look => exact ih false
    | glance => exact ih false

/-- For a listener who stays, the program that is left does all. -/
theorem Listener.run_steady {α σ : Type} (host : Program.Host Effect Effect.Answer σ)
    (p : HeedfulProgram α) (moment : Nat) (s : σ) :
    steady.run host p moment s = p.attended.run host s := by
  induction p generalizing moment s with
  | done a => rfl
  | ask inquiry next ih =>
    cases inquiry with
    | perform effect =>
      rw [run, HeedfulProgram.attended, Program.run]
      cases host effect s with
      | none => rfl
      | some answer => simp only [ih]
    | look => exact ih false moment s
    | glance => exact ih false moment s

/-- A run for a listener takes the host from its first state to its last. -/
theorem Listener.leads_run {α σ : Type} (listener : Listener)
    (host : Program.Host Effect Effect.Answer σ) (p : HeedfulProgram α) (moment : Nat) (s : σ) :
    host.Leads s (listener.run host p moment s).exchanges (listener.run host p moment s).state := by
  induction p generalizing moment s with
  | done a => rfl
  | ask inquiry next ih =>
    cases inquiry with
    | perform effect =>
      rw [run]
      cases h : host effect s with
      | none => rfl
      | some answer => exact ⟨answer.2, h, ih answer.1 (moment + 1) answer.2⟩
    | look | glance => exact ih _ moment s

namespace Heedful

variable {α β : Type} {hangs : Effect → Prop}

/-- The courses of a heedful program with a listener who stays. -/
def Course (hangs : Effect → Prop) (h : Heedful α) (t : List TurnExchange)
    (o : Option (Except Interruption α)) : Prop :=
  (HeedfulProgram.attended h.run).Course hangs t o

theorem attended_watch (p : TurnProgram α) :
    HeedfulProgram.attended (watch p).run = p >>= fun a => pure (.ok a) := by
  induction p with
  | done a => rfl
  | ask effect next ih => exact congrArg (Program.ask effect) (funext ih)

/-- A guard is not in the way of a listener who stays. -/
theorem attended_guard (p : TurnProgram α) :
    HeedfulProgram.attended (guard p).run = p >>= fun a => pure (.ok a) :=
  attended_watch p

theorem course_pure_iff (a : α) (t : List TurnExchange) (o : Option (Except Interruption α)) :
    Course hangs (pure a) t o ↔ t = [] ∧ o = some (.ok a) :=
  Program.course_done_iff _ _ _

theorem course_throw_iff (i : Interruption) (t : List TurnExchange)
    (o : Option (Except Interruption α)) :
    Course hangs (throw i) t o ↔ t = [] ∧ o = some (.error i) :=
  Program.course_done_iff _ _ _

/-- A course of one heedful program and another behind it stops in the first one, unanswered or
interrupted, or goes through both. -/
theorem course_bind_iff (h : Heedful α) (f : α → Heedful β) (t : List TurnExchange)
    (o : Option (Except Interruption β)) :
    Course hangs (h >>= f) t o ↔
      (h.Course hangs t none ∧ o = none ∨
          ∃ i, h.Course hangs t (some (.error i)) ∧ o = some (.error i)) ∨
        ∃ a t₁ t₂, t = t₁ ++ t₂ ∧ h.Course hangs t₁ (some (.ok a)) ∧ (f a).Course hangs t₂ o := by
  rw [Course, ExceptT.run_bind, HeedfulProgram.attended_bind, Program.course_bind_iff]
  constructor
  · rintro (hstop | ⟨a | a, t₁, t₂, rfl, h₁, h₂⟩)
    · exact .inl (.inl hstop)
    · obtain ⟨rfl, rfl⟩ := (Program.course_done_iff _ _ _).mp h₂
      rw [List.append_nil]
      exact .inl (.inr ⟨a, h₁, rfl⟩)
    · exact .inr ⟨a, t₁, t₂, rfl, h₁, h₂⟩
  · rintro ((hstop | ⟨i, h₁, rfl⟩) | ⟨a, t₁, t₂, rfl, h₁, h₂⟩)
    · exact .inl hstop
    · exact .inr ⟨.error i, t, [], (List.append_nil t).symm, h₁, .done _⟩
    · exact .inr ⟨.ok a, t₁, t₂, rfl, h₁, h₂⟩

theorem attended_ofAttempt (attempt : Attempt α) :
    HeedfulProgram.attended (ofAttempt attempt).run =
      attempt.run >>= fun a => pure (a.mapError .fault) := by
  rw [ofAttempt, ExceptT.run_bind, HeedfulProgram.attended_bind, attended_guard, Program.bind_assoc]
  refine congrArg (attempt.run >>= ·) (funext fun a => ?_)
  cases a <;> rfl

theorem course_guard_iff (p : TurnProgram α) (t : List TurnExchange)
    (o : Option (Except Interruption α)) :
    (guard p).Course hangs t o ↔ ∃ o', p.Course hangs t o' ∧ o = o'.map .ok := by
  rw [Course, attended_guard, Program.course_map_iff]

/-- The fault of an attempt interrupts. -/
theorem course_ofAttempt_iff (attempt : Attempt α) (t : List TurnExchange)
    (o : Option (Except Interruption α)) :
    (ofAttempt attempt).Course hangs t o ↔
      ∃ o', attempt.run.Course hangs t o' ∧ o = o'.map (Except.mapError .fault) := by
  rw [Course, attended_ofAttempt, Program.course_map_iff]

/-- A party is asked something, and its fault interrupts what would follow the answer. -/
private theorem course_ofParty_bind_iff {ε : Type} (p : TurnProgram (Except ε α)) (wrap : ε → Fault)
    (f : α → Heedful β) (t : List TurnExchange) (o : Option (Except Interruption β)) :
    (ofAttempt (ExceptT.mk (p >>= fun answer => pure (answer.mapError wrap))) >>= f).Course
        hangs t o ↔
      p.Course hangs t none ∧ o = none ∨
        (∃ fault, p.Course hangs t (some (.error fault)) ∧
            o = some (.error (.fault (wrap fault)))) ∨
          ∃ a t₁ t₂, p.Course hangs t₁ (some (.ok a)) ∧ t = t₁ ++ t₂ ∧ (f a).Course hangs t₂ o := by
  rw [course_bind_iff, or_assoc]
  simp only [course_ofAttempt_iff, ExceptT.run_mk, Program.course_map_iff]
  refine or_congr ?_ (or_congr ?_ ?_)
  · constructor
    · rintro ⟨⟨_ | _, ⟨_ | _, h, ho⟩, ho'⟩, rfl⟩
      · exact ⟨h, rfl⟩
      all_goals simp at ho ho'
    · rintro ⟨h, rfl⟩
      exact ⟨⟨none, ⟨none, h, rfl⟩, rfl⟩, rfl⟩
  · constructor
    · rintro ⟨i, ⟨_, ⟨_ | _ | _, h, rfl⟩, ho⟩, rfl⟩
      · cases ho
      · cases ho
        exact ⟨_, h, rfl⟩
      · cases ho
    · rintro ⟨fault, h, rfl⟩
      exact ⟨_, ⟨_, ⟨_, h, rfl⟩, rfl⟩, rfl⟩
  · constructor
    · rintro ⟨a, t₁, t₂, rfl, ⟨_, ⟨_ | _ | _, h, rfl⟩, ho⟩, h₂⟩
      · cases ho
      · cases ho
      · cases ho
        exact ⟨_, t₁, t₂, h, rfl, h₂⟩
    · rintro ⟨a, t₁, t₂, h, rfl, h₂⟩
      exact ⟨a, t₁, t₂, rfl, ⟨_, ⟨_, h, rfl⟩, rfl⟩, h₂⟩

theorem course_findAgent_bind_iff (id : String) (f : Option Agent → Heedful β)
    (t : List TurnExchange) (o : Option (Except Interruption β)) :
    (ofAttempt (Attempt.findAgent id) >>= f).Course hangs t o ↔
      hangs (.findAgent id) ∧ t = [] ∧ o = none ∨
        (∃ fault, t = [⟨.findAgent id, .error fault⟩] ∧
            o = some (.error (.fault (.store fault)))) ∨
          ∃ agent t', t = ⟨.findAgent id, .ok agent⟩ :: t' ∧ (f agent).Course hangs t' o := by
  refine (course_ofParty_bind_iff (Effect.ask (.findAgent id)) .store f t o).trans ?_
  simp [Effect.ask, Program.course_query_iff, and_assoc]

theorem course_openSession_bind_iff (agentId : String) (title : Option String)
    (f : SessionId → Heedful β)
    (t : List TurnExchange) (o : Option (Except Interruption β)) :
    (ofAttempt (Attempt.openSession agentId title) >>= f).Course hangs t o ↔
      hangs (.openSession agentId title) ∧ t = [] ∧ o = none ∨
        (∃ fault, t = [⟨.openSession agentId title, .error fault⟩] ∧
            o = some (.error (.fault (.store fault)))) ∨
          ∃ session t', t = ⟨.openSession agentId title, .ok session⟩ :: t' ∧
            (f session).Course hangs t' o := by
  refine (course_ofParty_bind_iff (Effect.ask (.openSession agentId title)) .store f t o).trans ?_
  simp [Effect.ask, Program.course_query_iff, and_assoc]

theorem course_append_bind_iff (session : SessionId) (draft : Draft) (f : MessageId → Heedful β)
    (t : List TurnExchange) (o : Option (Except Interruption β)) :
    (ofAttempt (Attempt.append session draft) >>= f).Course hangs t o ↔
      hangs (.append session draft) ∧ t = [] ∧ o = none ∨
        (∃ fault, t = [⟨.append session draft, .error fault⟩] ∧
            o = some (.error (.fault (.store fault)))) ∨
          ∃ id t', t = ⟨.append session draft, .ok id⟩ :: t' ∧ (f id).Course hangs t' o := by
  refine (course_ofParty_bind_iff (Effect.ask (.append session draft)) .store f t o).trans ?_
  simp [Effect.ask, Program.course_query_iff, and_assoc]

theorem course_recentHistory_bind_iff (session : SessionId) (limit : Nat)
    (f : List Message → Heedful β)
    (t : List TurnExchange) (o : Option (Except Interruption β)) :
    (ofAttempt (Attempt.recentHistory session limit) >>= f).Course hangs t o ↔
      hangs (.recentHistory session limit) ∧ t = [] ∧ o = none ∨
        (∃ fault, t = [⟨.recentHistory session limit, .error fault⟩] ∧
            o = some (.error (.fault (.store fault)))) ∨
          ∃ history t', t = ⟨.recentHistory session limit, .ok history⟩ :: t' ∧
            (f history).Course hangs t' o := by
  refine (course_ofParty_bind_iff (Effect.ask (.recentHistory session limit)) .store f t o).trans ?_
  simp [Effect.ask, Program.course_query_iff, and_assoc]

theorem course_complete_bind_iff (request : CompletionRequest) (f : ModelStream → Heedful β)
    (t : List TurnExchange) (o : Option (Except Interruption β)) :
    (ofAttempt (Attempt.complete request) >>= f).Course hangs t o ↔
      hangs (.complete request) ∧ t = [] ∧ o = none ∨
        (∃ fault, t = [⟨.complete request, .error fault⟩] ∧
            o = some (.error (.fault (.model fault)))) ∨
          ∃ stream t', t = ⟨.complete request, .ok stream⟩ :: t' ∧
            (f stream).Course hangs t' o := by
  refine (course_ofParty_bind_iff (Effect.ask (.complete request)) .model f t o).trans ?_
  simp [Effect.ask, Program.course_query_iff, and_assoc]

theorem course_await_bind_iff (f : Unit → Heedful β) (t : List TurnExchange)
    (o : Option (Except Interruption β)) :
    (await >>= f).Course hangs t o ↔ (f ()).Course hangs t o :=
  Iff.rfl

theorem course_say_bind_iff (piece : String) (f : Unit → Heedful β) (t : List TurnExchange)
    (o : Option (Except Interruption β)) :
    (say piece >>= f).Course hangs t o ↔
      hangs (.deliver (.ok piece)) ∧ t = [] ∧ o = none ∨
        ∃ t', t = .piece piece :: t' ∧ (f ()).Course hangs t' o :=
  (Program.course_ask_iff _ _ _ _).trans
    (or_congr Iff.rfl ⟨fun ⟨_, t', h⟩ => ⟨t', h⟩, fun ⟨t', h⟩ => ⟨(), t', h⟩⟩)

/-- Nothing ever comes of waiting for ever. -/
theorem course_waitForever_iff (t : List TurnExchange) (o : Option (Except Interruption α)) :
    waitForever.Course hangs t o ↔ hangs .waitForever ∧ t = [] ∧ o = none := by
  rw [waitForever, course_guard_iff]
  simp only [Program.course_ask_iff]
  constructor
  · rintro ⟨_, ⟨hhangs, rfl, rfl⟩ | ⟨answer, -⟩, rfl⟩
    · exact ⟨hhangs, rfl, rfl⟩
    · exact answer.elim
  · rintro ⟨hhangs, rfl, rfl⟩
    exact ⟨none, .inl ⟨hhangs, rfl, rfl⟩, rfl⟩

/-- A heedful program comes to a stand, or fails, only as `halts` says, and else it ends as `ends`
says. -/
def Goes (hangs : Effect → Prop) (h : Heedful α) (halts : List TurnExchange → Option Fault → Prop)
    (ends : List TurnExchange → α → Prop) : Prop :=
  ∀ t o, h.Course hangs t o →
    (∃ fault, halts t fault ∧ o = fault.map fun fault => .error (.fault fault)) ∨
      ∃ a, ends t a ∧ o = some (.ok a)

/-- What follows a program goes on from one of its ends. -/
theorem Goes.bind {h : Heedful α} {halts : List TurnExchange → Option Fault → Prop}
    {ends : List TurnExchange → α → Prop} (hgoes : h.Goes hangs halts ends) {f : α → Heedful β}
    {t : List TurnExchange} {o : Option (Except Interruption β)}
    (hcourse : (h >>= f).Course hangs t o) :
    (∃ fault, halts t fault ∧ o = fault.map fun fault => .error (.fault fault)) ∨
      ∃ a t₁ t₂, ends t₁ a ∧ t = t₁ ++ t₂ ∧ (f a).Course hangs t₂ o := by
  rw [course_bind_iff] at hcourse
  obtain (⟨hstop, rfl⟩ | ⟨i, hstop, rfl⟩) | ⟨a, t₁, t₂, rfl, h₁, h₂⟩ := hcourse
  · obtain ⟨_ | fault, hhalts, ho⟩ | ⟨a, -, ho⟩ := hgoes _ _ hstop
    · exact .inl ⟨none, hhalts, rfl⟩
    · cases ho
    · cases ho
  · obtain ⟨_ | fault, hhalts, ho⟩ | ⟨a, -, ho⟩ := hgoes _ _ hstop
    · cases ho
    · cases ho
      exact .inl ⟨some fault, hhalts, rfl⟩
    · cases ho
  · obtain ⟨_ | fault, -, ho⟩ | ⟨b, hends, ho⟩ := hgoes _ _ h₁
    · cases ho
    · cases ho
    · cases ho
      exact .inr ⟨a, t₁, t₂, hends, rfl, h₂⟩

/-- How a program that may fail goes when its fault is delivered as the last thing. -/
inductive Reported (hangs : Effect → Prop)
    (goes : List TurnExchange → Option (Except Fault Unit) → Prop) :
    List TurnExchange → Option Unit → Prop
  /-- The program comes to a stand. -/
  | stalled {t : List TurnExchange} (hgoes : goes t none) : Reported hangs goes t none
  /-- The program ends without a fault. -/
  | ended {t : List TurnExchange} (hgoes : goes t (some (.ok ()))) : Reported hangs goes t (some ())
  /-- The program fails, but the fault is not taken. -/
  | untold {t : List TurnExchange} {fault : Fault} (hgoes : goes t (some (.error fault)))
    (hhangs : hangs (.deliver (.error fault))) : Reported hangs goes t none
  /-- The program fails, and the fault is delivered. -/
  | told {t : List TurnExchange} {fault : Fault} (hgoes : goes t (some (.error fault))) :
    Reported hangs goes (t ++ [.report fault]) (some ())

/-- The fault of a program is delivered as the last thing. -/
theorem Goes.reported {h : Heedful Unit}
    {goes : List TurnExchange → Option (Except Fault Unit) → Prop}
    (hgoes : h.Goes hangs (fun t fault => goes t (fault.map .error))
      (fun t _ => goes t (some (.ok ()))))
    {t : List TurnExchange} {o : Option Unit}
    (hcourse : (HeedfulProgram.attended h.reported).Course hangs t o) :
    Reported hangs goes t o := by
  rw [Heedful.reported, HeedfulProgram.attended_bind, Program.course_bind_iff] at hcourse
  obtain ⟨hstop, rfl⟩ | ⟨a, t₁, t₂, rfl, h₁, h₂⟩ := hcourse
  · obtain ⟨_ | fault, hhalts, ho⟩ | ⟨a, -, ho⟩ := hgoes _ _ hstop
    · exact .stalled hhalts
    · cases ho
    · cases ho
  obtain ⟨_ | fault, hhalts, ho⟩ | ⟨_, hends, ho⟩ := hgoes _ _ h₁
  · cases ho
  · cases ho
    rw [HeedfulProgram.attended_bind, attended_guard, Program.bind_assoc] at h₂
    obtain ⟨o', ho, rfl⟩ := (Program.course_map_iff _ _ _ _).mp h₂
    obtain ⟨hhangs, rfl, rfl⟩ | ⟨_, rfl, rfl⟩ := (Program.course_query_iff _ _ _).mp ho
    · rw [List.append_nil]
      exact .untold hhalts hhangs
    · exact .told hhalts
  · cases ho
    obtain ⟨rfl, rfl⟩ := (Program.course_done_iff _ _ _).mp h₂
    rw [List.append_nil]
    exact .ended hends

section Runs

variable {σ : Type} {host : Program.Host Effect Effect.Answer σ} {h : Heedful α} {s s' : σ}

/-- Behind a program that ends, the next one runs. -/
theorem run_bind_of_ok {t : List TurnExchange} {a : α}
    (hrun : (HeedfulProgram.attended h.run).run host s = ⟨t, some (.ok a), s'⟩)
    (f : α → Heedful β) :
    (HeedfulProgram.attended (h >>= f).run).run host s =
      let rest := (HeedfulProgram.attended (f a).run).run host s'
      ⟨t ++ rest.exchanges, rest.outcome, rest.state⟩ := by
  rw [ExceptT.run_bind, HeedfulProgram.attended_bind, Program.run_bind, hrun]
  rfl

/-- Behind a program that comes to a stand, nothing runs. -/
theorem run_bind_of_none {t : List TurnExchange}
    (hrun : (HeedfulProgram.attended h.run).run host s = ⟨t, none, s'⟩) (f : α → Heedful β) :
    (HeedfulProgram.attended (h >>= f).run).run host s = ⟨t, none, s'⟩ := by
  rw [ExceptT.run_bind, HeedfulProgram.attended_bind, Program.run_bind, hrun]
  rfl

/-- A program that comes to a stand has no fault to deliver. -/
theorem run_reported_of_none {h : Heedful Unit} {t : List TurnExchange}
    (hrun : (HeedfulProgram.attended h.run).run host s = ⟨t, none, s'⟩) :
    (HeedfulProgram.attended h.reported).run host s = ⟨t, none, s'⟩ := by
  rw [reported, HeedfulProgram.attended_bind, Program.run_bind, hrun]
  rfl

end Runs

end Heedful

end Colloquy
