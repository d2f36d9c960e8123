import Colloquy.Configuration.Validity
import Colloquy.Proofs.Turn.Consultations
import Colloquy.Proofs.Turn.Depth

/-!
# The limit on the levels of a turn

The number of a level is a word, and it is compared with the greatest depth before each level. As
long as the greatest depth is not the greatest word, the words number the levels as natural numbers
would, so that no turn calls the model more often or runs more batches than the depth allows,
whatever the model, the tools and the listener do. Then a turn comes to a stand only where somebody
else does not answer, or where the answer of the model has no end. For the greatest word itself the
words begin again behind it, and there is no limit.
-/

namespace Colloquy

namespace Assignment

variable {σ : Type}

/-- A run of an assignment has come to a stand at an effect that the host does not answer. If it is
the effect of waiting for ever, then the answer of the model has no end. -/
def Stuck (assignment : Assignment) (scope : TurnScope)
    (host : Program.Host Effect Effect.Answer σ) (run : Program.Run Effect.Answer Unit σ) : Prop :=
  ∃ effect next, (assignment.heedful scope).Reaches run.exchanges (.ask (.perform effect) next) ∧
    host effect run.state = none ∧
    (effect = .waitForever → ∃ stream ∈ answers run.exchanges, stream.ending = .never)

end Assignment

namespace Turn

variable {hangs : Effect → Prop} {scope : TurnScope} {turn : Turn} {session : SessionId}
  {t : List TurnExchange}

/-- Works through levels that are numbered without a bound. -/
def numberedLevels (scope : TurnScope) (turn : Turn) (session : SessionId) :
    Nat → (number : Nat) → Progress → Heedful Progress
  | 0, _, _ => Heedful.waitForever
  | horizon + 1, number, progress => do
    let settings := scope.settings.effective
    if settings.maxDepth.toNat < number then
      Heedful.say (depthNotice settings.maxDepth)
      pure progress
    else
      let (text, calls) ← answer settings turn session progress.content progress.text
      if calls.isEmpty then pure { progress with text }
      else
        let batch ← Heedful.guard (Batch.calls scope.serves turn.agent session calls)
        numberedLevels scope turn session horizon (number + 1)
          ⟨followUp batch, text, progress.records ++ batch, progress.depth + 1⟩

/-- As long as the greatest depth is not the greatest word, words number the levels as well as natural
numbers do. -/
theorem levels_eq_numberedLevels (turn : Turn) (session : SessionId)
    (hmax : scope.settings.effective.maxDepth.toNat < Word.count 32 - 1) (horizon : Nat)
    (progress : Progress) :
    levels scope turn session horizon progress =
      numberedLevels scope turn session horizon progress.depth.toNat progress := by
  induction horizon generalizing progress with
  | zero => rfl
  | succ horizon ih =>
    rw [levels, numberedLevels]
    by_cases hmore : scope.settings.effective.maxDepth < progress.depth
    · have hnumber := UInt32.lt_iff_toNat_lt.mp hmore
      rw [if_pos hmore, if_pos hnumber]
    · have hnumber := fun hlt => hmore (UInt32.lt_iff_toNat_lt.mpr hlt)
      have hnext := toNat_depth_succ hmax hmore
      rw [if_neg hmore, if_neg hnumber]
      simp only [ih, hnext]

/-- How far a turn can come: the levels on which it handles calls, and how many there are. -/
structure Limited (scope : TurnScope) (turn : Turn) (session : SessionId) (most : Nat)
    (levels : List Level) (t : List TurnExchange) : Prop where
  /-- The levels are complete, and their answers make calls. -/
  complete : ∀ level ∈ levels, level.Complete scope turn session ∧ level.stream.calls ≠ []
  /-- Their answers are the first that the model gave. -/
  answered : levels.map (·.stream) <+: answers t
  /-- What was handled is the beginning of their batches. -/
  handled : handling t <+: levels.flatMap (·.work)
  /-- There are no more batches than are allowed. -/
  few : levels.length ≤ most
  /-- The model is called no more often than is allowed. -/
  called : (requested t).length ≤ most

theorem Limited.of_idle (h : Idle t) (most : Nat) :
    Limited scope turn session most [] t where
  complete _ := nofun
  answered := List.nil_prefix
  handled := by rw [h.handled]; exact List.nil_prefix
  few := Nat.zero_le most
  called := by rw [h.requested]; exact Nat.zero_le most

section Levels

variable {content : String} {levels : List Level} {most : Nat}

private theorem handling_of_opening {level : Level}
    (hpart : t <+: level.opening scope turn session) : handling t = [] := by
  have hnone : handling (level.opening scope turn session) = [] := level.handling_opening ..
  have hsub : (handling t).Sublist (handling (level.opening scope turn session)) :=
    hpart.sublist.filter _
  rw [hnone] at hsub
  exact List.sublist_nil.mp hsub

private theorem length_requested_of_opening {level : Level}
    (hpart : t <+: level.opening scope turn session) : (requested t).length ≤ 1 := by
  have hsub : (requested t).Sublist (requested (level.opening scope turn session)) :=
    hpart.sublist.filterMap _
  rw [requested_opening] at hsub
  exact hsub.length_le

/-- Where the model is called once and no call is handled, one level is enough. -/
private theorem Limited.of_called (hmost : 0 < most) (hhandled : handling t = [])
    (hcalled : (requested t).length ≤ 1) : Limited scope turn session most [] t where
  complete _ := nofun
  answered := List.nil_prefix
  handled := by rw [hhandled]; exact List.nil_prefix
  few := Nat.zero_le most
  called := Nat.le_trans hcalled hmost

private theorem Limited.of_opening {level : Level} (hmost : 0 < most)
    (hpart : t <+: level.opening scope turn session) :
    Limited scope turn session most [] t :=
  .of_called hmost (handling_of_opening hpart) (length_requested_of_opening hpart)

/-- No batch is run on a level that does not come to the end of the model's answer. -/
private theorem Halted.limited {fault : Option Fault}
    (h : Halted hangs scope turn session content t fault) (hmost : 0 < most) :
    Limited scope turn session most [] t := by
  cases h with
  | stalled level hcontent hpart hstall => exact .of_opening hmost hpart
  | noHistory fault => exact .of_called hmost rfl (Nat.zero_le 1)
  | noModel history fault => exact .of_called hmost rfl (Nat.le_refl 1)
  | brokenOff level hcontent hending => exact .of_opening hmost List.prefix_rfl

/-- Behind a level on which a batch is run, one level less is allowed. -/
private theorem Limited.behind {level : Level} (hlevel : level.Complete scope turn session)
    (hcalls : level.stream.calls ≠ []) (h : Limited scope turn session most levels t) :
    Limited scope turn session (most + 1) (level :: levels)
      (level.exchanges scope turn session ++ t) where
  complete := List.forall_mem_cons.mpr ⟨⟨hlevel, hcalls⟩, h.complete⟩
  answered := by
    rw [answers_append, hlevel.answers_exchanges]
    exact (List.prefix_append_right_inj [level.stream]).mpr h.answered
  handled := by
    rw [handling_append, hlevel.handling_exchanges]
    exact (List.prefix_append_right_inj level.work).mpr h.handled
  few := Nat.succ_le_succ h.few
  called := by
    have hcalled := h.called
    rw [requested_append, requested_exchanges hlevel, List.length_append, List.length_singleton]
    omega

/-- Without calls, there is nothing to handle. -/
private theorem work_eq_nil {level : Level} (hlevel : level.Complete scope turn session)
    (hcalls : level.stream.calls = []) : level.work = [] := by
  have hcompleted := hlevel.completed
  rw [hcalls] at hcompleted
  exact hcompleted.of_nil.1

/-- A level among whose calls the turn comes to a stand is one of those on which a batch is run. -/
private theorem limited_of_working {level : Level} (hlevel : level.Complete scope turn session)
    (hcalls : level.stream.calls ≠ []) (hmost : 0 < most) (hpart : t <+: level.work) :
    Limited scope turn session most [level] (level.opening scope turn session ++ t) := by
  have hwork : ∀ exchange ∈ t, exchange.1.isWork := fun exchange hmem =>
    hlevel.isWork exchange (hpart.subset hmem)
  refine ⟨List.forall_mem_singleton.mpr ⟨hlevel, hcalls⟩, ?_, ?_, hmost, ?_⟩
  · rw [answers_append, level.answers_opening]
    exact List.prefix_append _ _
  · rw [handling_append, level.handling_opening, handling_of_work hwork]
    simpa using hpart
  · rw [requested_append, requested_opening, requested_of_work hwork]
    exact hmost

/-- A loop goes no further than the depth allows that is left. -/
private theorem Loop.limited {progress : Progress} {o : Option (Except Fault Progress)}
    (h : Loop hangs scope turn session progress t o)
    (hmax : scope.settings.effective.maxDepth.toNat < Word.count 32 - 1)
    (hleft : scope.settings.effective.maxDepth.toNat + 1 = progress.depth.toNat + most) :
    ∃ levels, Limited scope turn session most levels t := by
  induction h generalizing most with
  | unseen | capped => exact ⟨[], .of_idle ⟨rfl, rfl⟩ most⟩
  | halted hmore hhalted =>
    have hbelow := toNat_depth_le hmore
    exact ⟨[], hhalted.limited (by omega)⟩
  | working hmore level hcontent hlevel hpart =>
    have hbelow := toNat_depth_le hmore
    by_cases hcalls : level.stream.calls = []
    · rw [work_eq_nil hlevel hcalls] at hpart
      rw [List.prefix_nil.mp hpart, List.append_nil]
      exact ⟨[], .of_opening (by omega) List.prefix_rfl⟩
    · exact ⟨[level], limited_of_working hlevel hcalls (by omega) hpart⟩
  | last hmore level hcontent hlevel hcalls =>
    have hbelow := toNat_depth_le hmore
    rw [Level.exchanges, work_eq_nil hlevel hcalls, List.append_nil]
    exact ⟨[], .of_opening (by omega) List.prefix_rfl⟩
  | @level progress hmore level _ hlevel hcalls _ _ _ ih =>
    have hbelow := toNat_depth_le hmore
    have hnext : (progress.after level).depth.toNat = progress.depth.toNat + 1 :=
      toNat_depth_succ hmax hmore
    obtain ⟨left, rfl⟩ : ∃ left, most = left + 1 := ⟨most - 1, by omega⟩
    have hbehind : scope.settings.effective.maxDepth.toNat + 1 =
        (progress.after level).depth.toNat + left := by omega
    obtain ⟨levels, hlimited⟩ := ih hbehind
    exact ⟨level :: levels, hlimited.behind hlevel hcalls⟩

end Levels

/-- What happens on the levels of a turn is all that is not idle. -/
private theorem Limited.within {most : Nat} {levels : List Level}
    {before work behind : List TurnExchange} (h : Limited scope turn session most levels work)
    (hheard : Heard turn session before) (hbehind : Idle behind) :
    Limited scope turn session most levels (before ++ (work ++ behind)) where
  complete := h.complete
  answered := h.answered.trans hheard.answers_within
  handled := by
    rw [handling_append, handling_append, hheard.handled, hbehind.handled, List.nil_append,
      List.append_nil]
    exact h.handled
  few := h.few
  called := by
    rw [hheard.requested_within hbehind.requested]
    exact h.called

/-- As long as the greatest depth is not the greatest word, it limits every turn, whatever the model,
the tools and the listener do: so often at most the model is called, so many batches at most are run,
and words number the levels without beginning again. If the turn comes to a stand, then because
somebody else does not answer or because the answer of the model has no end. -/
theorem limited_run {σ : Type} (assignment : Assignment) (scope : TurnScope) (listener : Listener)
    (host : Program.Host Effect Effect.Answer σ) (s : σ) (turn : Turn)
    (hresolves : assignment.Resolves (assignment.run scope listener host s).exchanges turn)
    (hmax : scope.settings.effective.maxDepth.toNat < Word.count 32 - 1)
    (hhorizon : scope.settings.effective.maxDepth.toNat < scope.horizon) :
    (∃ session levels, Limited scope turn session scope.settings.effective.maxDepth.toNat levels
        (assignment.run scope listener host s).exchanges) ∧
      (∀ session, levels scope turn session scope.horizon turn.start =
        numberedLevels scope turn session scope.horizon 1 turn.start) ∧
      ((assignment.run scope listener host s).outcome = none →
        assignment.Stuck scope host (assignment.run scope listener host s)) := by
  have hfirst : turn.start.depth.toNat = 1 := rfl
  refine ⟨?_, fun session => ?_, fun hnone => ?_⟩
  · obtain hidle | ⟨session, before, work, behind, o, hheard, ht, hloop, hbehind⟩ :=
      onLevels_run assignment scope listener host s turn hresolves
    · exact ⟨"", [], .of_idle hidle _⟩
    · have hleft : scope.settings.effective.maxDepth.toNat + 1 =
          turn.start.depth.toNat + scope.settings.effective.maxDepth.toNat := by omega
      obtain ⟨levels, hlimited⟩ := hloop.limited hmax hleft
      rw [ht]
      exact ⟨session, levels, hlimited.within hheard hbehind⟩
  · exact levels_eq_numberedLevels turn session hmax scope.horizon turn.start
  · obtain ⟨effect, next, hreaches, hanswer⟩ :=
      HeedfulProgram.Reaches.start.unanswered listener host 0 s hnone
    refine ⟨effect, next, hreaches, hanswer, ?_⟩
    rintro rfl
    have hcourse : (assignment.heedful scope).attended.Course (· = .waitForever)
        (assignment.run scope listener host s).exchanges none :=
      hreaches.course_of_hangs (assignment.watchful_heedful scope) rfl
    exact patient_assignment assignment hmax hhorizon hcourse

section Ceaseless

/-- An answer that calls a tool and says nothing. -/
def calling : ModelStream :=
  ⟨[.ok ⟨none, [⟨0, none, some "clock", none⟩], true⟩], false⟩

/-- A host at which nothing fails, and whose model calls a tool whenever it is asked. -/
def ceaseless : Program.Host Effect Effect.Answer Unit :=
  fun effect _ => (obliging effect [calling]).map fun answer => (answer.1, ())

/-- A turn that is allowed two levels and whose model would go on for ever. -/
theorem limited_run_ceaseless :
    let clock : Tool := ⟨"1", "clock", "", .native, true, emptySchemaText⟩
    let prompt : Prompt := ⟨"p", "Be brief.", true⟩
    let turn : Turn := ⟨⟨"a", "A", [prompt], [clock], ⟨"m", 0, none⟩⟩, prompt, "Hello", none, []⟩
    let scope : TurnScope := ⟨{ TurnSettings.standard with maxDepth := 2 }, fun _ => true, 3⟩
    let run := (Assignment.prepared turn).run scope .steady ceaseless ()
    (requested run.exchanges).length = 2 ∧ run.outcome = some () ∧
      (∃ session levels, Limited scope turn session 2 levels run.exchanges) ∧
      (∀ session, levels scope turn session scope.horizon turn.start =
        numberedLevels scope turn session scope.horizon 1 turn.start) ∧
      (run.outcome = none → (Assignment.prepared turn).Stuck scope ceaseless run) := by
  intro clock prompt turn scope run
  refine ⟨by decide +kernel, by decide +kernel, ?_⟩
  exact limited_run (.prepared turn) scope .steady ceaseless () turn rfl (by decide) (by decide)

private theorem run_answer_ceaseless (settings : TurnSettings) (turn : Turn) (session : SessionId)
    (content text : String) :
    (HeedfulProgram.attended (answer settings turn session content text).run).run ceaseless () =
      ⟨[⟨.recentHistory session settings.historyLimit, .ok []⟩,
        ⟨.complete (turn.request settings.previewChars [] content), .ok calling⟩],
        some (.ok (text ++ "", calling.calls)), ()⟩ := by
  simp only [answer, forward_ofStream]
  rfl

/-- Calls are handled to their end, and the model is not asked meanwhile. -/
private theorem exists_run_ceaseless {α : Type} {p : TurnProgram α} (h : Heedful.OnlyWorks p) :
    ∃ t a, p.run ceaseless () = ⟨t, some a, ()⟩ ∧ requested t = [] := by
  induction p with
  | done a => exact ⟨[], a, rfl, rfl⟩
  | ask effect next ih =>
    obtain ⟨answer, hanswer⟩ : ∃ answer, ceaseless effect () = some (answer, ()) := by
      cases effect <;> first | exact ⟨_, rfl⟩ | cases h.1
    obtain ⟨t, a, hrun, hnone⟩ := ih answer (h.2 answer)
    refine ⟨⟨effect, answer⟩ :: t, a, ?_, ?_⟩
    · rw [Program.run, hanswer]
      simp only [hrun]
    · cases effect <;> first | exact hnone | cases h.1

/-- No number of a level is greater than the greatest word, so that the levels never end. -/
private theorem exists_run_levels_ceaseless (turn : Turn) (session : SessionId)
    (hgreatest : scope.settings.effective.maxDepth = 4294967295) (horizon : Nat)
    (progress : Progress) :
    ∃ t, (HeedfulProgram.attended (levels scope turn session horizon progress).run).run
        ceaseless () = ⟨t, none, ()⟩ ∧ (requested t).length = horizon := by
  induction horizon generalizing progress with
  | zero => exact ⟨[], rfl, rfl⟩
  | succ horizon ih =>
    have hmore : ¬ scope.settings.effective.maxDepth < progress.depth := by
      rw [hgreatest, UInt32.lt_iff_toNat_lt, Nat.not_lt]
      exact Nat.le_of_lt_succ progress.depth.toNat_lt
    have hcalls : ¬ calling.calls.isEmpty = true := by decide +kernel
    have hworks : Heedful.OnlyWorks (Batch.calls scope.serves turn.agent session calling.calls) :=
      Batch.onlyWorks_calls _
    obtain ⟨work, batch, hbatch, hnone⟩ := exists_run_ceaseless hworks
    have hguard : (HeedfulProgram.attended (Heedful.guard
        (Batch.calls scope.serves turn.agent session calling.calls)).run).run ceaseless () =
        ⟨work, some (.ok batch), ()⟩ := by
      rw [Heedful.attended_guard, Program.run_bind, hbatch]
      simp [Program.Run.andThen, Program.run]
    obtain ⟨t, hrest, hlength⟩ := ih
      ⟨followUp batch, progress.text ++ "", progress.records ++ batch, progress.depth + 1⟩
    rw [levels, if_neg hmore]
    dsimp only
    rw [Heedful.run_bind_of_ok (run_answer_ceaseless _ turn session progress.content progress.text)]
    dsimp only
    rw [if_neg hcalls, Heedful.run_bind_of_ok hguard, hrest]
    refine ⟨_, rfl, ?_⟩
    rw [requested_append, requested_append, hnone, List.nil_append, List.length_append, hlength]
    exact Nat.add_comm 1 horizon

/-- With the greatest word for its greatest depth, a turn whose model goes on for ever has no limit:
the model is called on as many levels as are looked at. -/
theorem length_requested_ceaseless
    (hgreatest : scope.settings.effective.maxDepth = 4294967295)
    (hsession : turn.session = some session) :
    let run := (Assignment.prepared turn).run scope .steady ceaseless ()
    (requested run.exchanges).length = scope.horizon ∧ run.outcome = none := by
  have hperform : turn.perform scope =
      Heedful.ofAttempt (Attempt.append session (.user turn.content)) >>= fun _ =>
        levels scope turn session scope.horizon turn.start >>= conclude session := by
    rw [perform, enter, hsession]
    rfl
  have happend : (HeedfulProgram.attended (Heedful.ofAttempt
      (Attempt.append session (.user turn.content))).run).run ceaseless () =
      ⟨[⟨.append session (.user turn.content), .ok "message"⟩], some (.ok "message"), ()⟩ := rfl
  obtain ⟨t, hlevels, hlength⟩ :=
    exists_run_levels_ceaseless turn session hgreatest scope.horizon turn.start
  have hrun := Heedful.run_bind_of_ok happend fun _ =>
    levels scope turn session scope.horizon turn.start >>= conclude session
  rw [← hperform, Heedful.run_bind_of_none hlevels] at hrun
  intro run
  have hwhole : run = ⟨⟨.append session (.user turn.content), .ok "message"⟩ :: t, none, ()⟩ :=
    (Listener.run_steady ceaseless _ 0 ()).trans (Heedful.run_reported_of_none hrun)
  rw [hwhole]
  exact ⟨hlength, rfl⟩

/-- The greatest word is an admitted depth. The word behind it is zero, and a turn with it goes beyond
it. Nor does a turn end whose model keeps it waiting in the middle of an answer. -/
theorem limitless_run :
    let clock : Tool := ⟨"1", "clock", "", .native, true, emptySchemaText⟩
    let prompt : Prompt := ⟨"p", "Be brief.", true⟩
    let turn : Turn := ⟨⟨"a", "A", [prompt], [clock], ⟨"m", 0, none⟩⟩, prompt, "Hi", some "s", []⟩
    let upTo (maxDepth : UInt32) : TurnSettings := { TurnSettings.standard with maxDepth }
    let endless (horizon : Nat) := (Assignment.prepared turn).run
      ⟨upTo 4294967295, fun _ => true, horizon⟩ .steady ceaseless ()
    let waiting := (Assignment.prepared turn).run ⟨upTo 1, fun _ => true, 2⟩ .steady obliging
      [⟨[.ok ⟨some "A", [], false⟩], true⟩]
    Configuration.violation? ⟨upTo 4294967295, .standard, []⟩ = none ∧
      (∀ (progress : Progress) (level : Level), progress.depth = 4294967295 →
        (progress.after level).depth = 0) ∧
      (∀ horizon, (requested (endless horizon).exchanges).length = horizon ∧
        (endless horizon).outcome = none) ∧
      (upTo 4294967295).maxDepth.toNat < (requested (endless 4294967296).exchanges).length ∧
      delivered waiting.exchanges = [.ok "A"] ∧ waiting.outcome = none := by
  intro clock prompt turn upTo endless waiting
  have hlength (horizon : Nat) : (requested (endless horizon).exchanges).length = horizon ∧
      (endless horizon).outcome = none :=
    length_requested_ceaseless rfl rfl
  refine ⟨rfl, ?_, hlength, ?_, by decide +kernel, by decide +kernel⟩
  · intro progress level hdepth
    change progress.depth + 1 = 0
    rw [hdepth]
    rfl
  · rw [(hlength 4294967296).1]
    decide

end Ceaseless

end Turn

end Colloquy
