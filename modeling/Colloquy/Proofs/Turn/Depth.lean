import Colloquy.Proofs.Turn.Cancellation
import Colloquy.Proofs.Turn.Faults
import Colloquy.Proofs.Turn.Persistence

/-!
# The depth of a turn

A turn numbers its levels from one and looks at the number before each of them. As long as the
greatest depth is not the greatest word, the number of a level is never too great to be counted, and
so there are two ways for a turn without faults to end: with the first answer that makes no calls,
or with the notice behind as many levels as the depth allows. It comes to a stand in neither.
-/

namespace Colloquy

namespace Heedful

variable {α β : Type}

/-- A program is lively if it never comes to a stand, as long as everything but waiting for ever is
answered. -/
def Lively (h : Heedful α) : Prop :=
  ∀ t, ¬ h.Course (· = .waitForever) t none

/-- A program is patient if it comes to a stand only at an answer of the model that never ends. -/
def Patient (h : Heedful α) : Prop :=
  ∀ t, h.Course (· = .waitForever) t none → ∃ stream ∈ answers t, stream.ending = .never

/-- Whether a program never asks to wait for ever. -/
def Responsive : TurnProgram α → Prop
  | .done _ => True
  | .ask effect next => effect ≠ .waitForever ∧ ∀ answer, Responsive (next answer)

theorem OnlyWorks.responsive {p : TurnProgram α} (h : OnlyWorks p) : Responsive p := by
  induction p with
  | done a => trivial
  | ask effect next ih =>
    refine ⟨?_, fun answer => ih answer (h.2 answer)⟩
    rintro rfl
    cases h.1

private theorem Responsive.ends {p : TurnProgram α} (h : Responsive p) (t : List TurnExchange) :
    ¬ p.Course (· = .waitForever) t none := by
  induction p generalizing t with
  | done a => simp
  | ask effect next ih =>
    intro hcourse
    obtain ⟨hwait, -⟩ | ⟨answer, rest, -, hrest⟩ := (Program.course_ask_iff _ _ _ _).mp hcourse
    · exact h.1 hwait
    · exact ih answer (h.2 answer) rest hrest

theorem lively_pure (a : α) : Lively (pure a) := by
  intro t h
  cases ((course_pure_iff _ _ _).mp h).2

theorem lively_throw (i : Interruption) : Lively (throw i : Heedful α) := by
  intro t h
  cases ((course_throw_iff _ _ _).mp h).2

theorem Lively.bind {h : Heedful α} (hh : h.Lively) {f : α → Heedful β} (hf : ∀ a, (f a).Lively) :
    (h >>= f).Lively := by
  intro t hcourse
  rw [course_bind_iff] at hcourse
  obtain (⟨hstop, -⟩ | ⟨i, -, ho⟩) | ⟨a, t₁, t₂, -, -, h₂⟩ := hcourse
  · exact hh t hstop
  · cases ho
  · exact hf a t₂ h₂

theorem lively_guard {p : TurnProgram α} (hp : Responsive p) : (guard p).Lively := by
  intro t h
  obtain ⟨o, ho, hnone⟩ := (course_guard_iff _ _ _).mp h
  rw [Option.map_eq_none_iff.mp hnone.symm] at ho
  exact hp.ends t ho

theorem lively_ofAttempt {attempt : Attempt α} (h : Responsive attempt.run) :
    (ofAttempt attempt).Lively := by
  refine (lively_guard h).bind ?_
  rintro (fault | a)
  · exact lively_throw _
  · exact lively_pure a

theorem lively_await : await.Lively :=
  lively_guard trivial

theorem lively_say (piece : String) : (say piece).Lively :=
  lively_guard ⟨by simp, fun _ => trivial⟩

theorem Lively.patient {h : Heedful α} (hh : h.Lively) : h.Patient :=
  fun t hcourse => absurd hcourse (hh t)

/-- Patient programs one behind the other are patient. -/
theorem Patient.bind {h : Heedful α} (hh : h.Patient) {f : α → Heedful β}
    (hf : ∀ a, (f a).Patient) : (h >>= f).Patient := by
  intro t hcourse
  rw [course_bind_iff] at hcourse
  obtain (⟨hstop, -⟩ | ⟨i, -, ho⟩) | ⟨a, t₁, t₂, rfl, -, h₂⟩ := hcourse
  · exact hh t hstop
  · cases ho
  · obtain ⟨stream, hmem, hnever⟩ := hf a t₂ h₂
    rw [answers_append]
    exact ⟨stream, List.mem_append_right _ hmem, hnever⟩

/-- A fault is delivered without coming to a stand. -/
theorem Patient.reported {h : Heedful Unit} (hh : h.Patient) {t : List TurnExchange}
    (hcourse : (HeedfulProgram.attended h.reported).Course (· = .waitForever) t none) :
    ∃ stream ∈ answers t, stream.ending = .never := by
  rw [Heedful.reported, HeedfulProgram.attended_bind, Program.course_bind_iff] at hcourse
  obtain ⟨hstop, -⟩ | ⟨(_ | fault) | _, t₁, t₂, rfl, -, h₂⟩ := hcourse
  · exact hh t hstop
  · simp [HeedfulProgram.attended] at h₂
  · rw [HeedfulProgram.attended_bind, attended_guard, Program.bind_assoc] at h₂
    have hresponsive : Responsive (Effect.ask (.deliver (.error fault))) :=
      ⟨by simp, fun _ => trivial⟩
    obtain ⟨o, ho, hnone⟩ := (Program.course_map_iff _ _ _ _).mp h₂
    rw [Option.map_eq_none_iff.mp hnone.symm] at ho
    exact absurd ho (hresponsive.ends t₂)
  · simp [HeedfulProgram.attended] at h₂

end Heedful

namespace Turn

variable {hangs : Effect → Prop} {scope : TurnScope} {turn : Turn} {session : SessionId}

/-- As long as the loop goes on, the number of the level is no greater than the greatest depth. -/
theorem toNat_depth_le {progress : Progress}
    (hmore : ¬ scope.settings.effective.maxDepth < progress.depth) :
    progress.depth.toNat ≤ scope.settings.effective.maxDepth.toNat := by
  rw [UInt32.lt_iff_toNat_lt] at hmore
  omega

/-- The number of the next level is not too great to be counted. -/
theorem toNat_depth_succ {progress : Progress}
    (hmax : scope.settings.effective.maxDepth.toNat < Word.count 32 - 1)
    (hmore : ¬ scope.settings.effective.maxDepth < progress.depth) :
    (progress.depth + 1).toNat = progress.depth.toNat + 1 := by
  have hbelow := toNat_depth_le hmore
  have hone : (1 : UInt32).toNat = 1 := rfl
  rw [Word.count_32] at hmax
  rw [UInt32.toNat_add, hone]
  omega

section Patience

open Heedful

private theorem lively_forwardAll (pieces : List String) : (forwardAll pieces).Lively := by
  induction pieces with
  | nil => exact lively_pure ()
  | cons piece pieces ih => exact lively_await.bind fun _ => (lively_say piece).bind fun _ => ih

/-- A stream that has an end is delivered up to it. -/
private theorem lively_forward (text : String) {stream : ModelStream}
    (hends : stream.ending ≠ .never) : (forward text (.ofStream stream)).Lively := by
  rw [forward_ofStream]
  refine (lively_forwardAll stream.texts).bind fun _ => ?_
  cases hending : stream.ending with
  | closed => exact lively_await.bind fun _ => lively_pure _
  | fault fault => exact lively_await.bind fun _ => lively_throw _
  | never => exact absurd hending hends

private theorem patient_answer (settings : TurnSettings) (content text : String) :
    (answer settings turn session content text).Patient := by
  intro t hcourse
  rw [answer, course_recentHistory_bind_iff] at hcourse
  obtain ⟨hwait, -⟩ | ⟨_, -, ho⟩ | ⟨history, t, rfl, h⟩ := hcourse
  · cases hwait
  · cases ho
  rw [course_complete_bind_iff] at h
  obtain ⟨hwait, -⟩ | ⟨_, -, ho⟩ | ⟨stream, t, rfl, hforward⟩ := h
  · cases hwait
  · cases ho
  refine ⟨stream, List.mem_cons_self, ?_⟩
  by_contra hends
  exact lively_forward text hends t hforward

/-- The levels are patient when more of them are looked at than the depth allows, and the depth can
be counted. -/
private theorem patient_levels (horizon : Nat) (progress : Progress)
    (hmax : scope.settings.effective.maxDepth.toNat < Word.count 32 - 1)
    (hdepth : progress.depth.toNat ≤ scope.settings.effective.maxDepth.toNat + 1)
    (hhorizon : scope.settings.effective.maxDepth.toNat + 1 < progress.depth.toNat + horizon) :
    (levels scope turn session horizon progress).Patient := by
  induction horizon generalizing progress with
  | zero => omega
  | succ horizon ih =>
    rw [levels]
    split
    · exact ((lively_say _).bind fun _ => lively_pure _).patient
    next hmore =>
    have hbelow := toNat_depth_le hmore
    refine (patient_answer _ _ _).bind ?_
    rintro ⟨text, calls⟩
    dsimp only
    split
    · exact (lively_pure _).patient
    refine (lively_guard (Batch.onlyWorks_calls calls).responsive).patient.bind fun batch => ?_
    have hnext := toNat_depth_succ hmax hmore
    apply ih
    · rw [hnext]
      omega
    · rw [hnext]
      omega

private theorem lively_enter (turn : Turn) : turn.enter.Lively := by
  rw [enter]
  split
  · exact lively_pure _
  · exact lively_ofAttempt ⟨by simp, fun _ => trivial⟩

private theorem lively_append (session : SessionId) (draft : Draft) :
    (ofAttempt (Attempt.append session draft)).Lively :=
  lively_ofAttempt ⟨by simp, fun _ => trivial⟩

private theorem lively_conclude (session : SessionId) (progress : Progress) :
    (conclude session progress).Lively := by
  rw [conclude]
  split
  · exact (lively_append _ _).bind fun _ => lively_pure _
  · exact lively_pure _

/-- A turn is patient. -/
theorem patient_perform (turn : Turn)
    (hmax : scope.settings.effective.maxDepth.toNat < Word.count 32 - 1)
    (hhorizon : scope.settings.effective.maxDepth.toNat < scope.horizon) :
    (turn.perform scope).Patient := by
  refine (lively_enter turn).patient.bind fun session => ?_
  refine (lively_append session _).patient.bind fun id => ?_
  refine Patient.bind ?_ fun progress => (lively_conclude session progress).patient
  have hfirst : (1 : UInt32).toNat = 1 := rfl
  apply patient_levels scope.horizon turn.start hmax
  · exact Nat.le_add_left 1 _
  · rw [start, hfirst]
    omega

end Patience

end Turn

/-- A request is patient. -/
private theorem TurnRequest.patient_perform {scope : TurnScope} (request : TurnRequest)
    (hmax : scope.settings.effective.maxDepth.toNat < Word.count 32 - 1)
    (hhorizon : scope.settings.effective.maxDepth.toNat < scope.horizon) :
    (request.perform scope).Patient := by
  refine Heedful.Patient.bind (Heedful.Lively.patient ?_) fun resolved => ?_
  · rw [resolve]
    split
    · exact Heedful.lively_pure _
    · refine (Heedful.lively_ofAttempt ?_).bind fun _ => Heedful.lively_pure _
      exact ⟨by simp, fun _ => trivial⟩
  · cases resolved with
    | ok turn => exact turn.patient_perform hmax hhorizon
    | error rejection => exact (Heedful.lively_say _).patient

namespace Turn

variable {hangs : Effect → Prop} {scope : TurnScope} {turn : Turn} {session : SessionId}

/-- How the number of levels of a loop comes about: it is given by the first answer without calls, or
else by the depth that is left. -/
private theorem Loop.depth {progress last : Progress} {t : List TurnExchange}
    {o : Option (Except Fault Progress)} (hloop : Loop hangs scope turn session progress t o)
    (ho : o = some (.ok last))
    (hmax : scope.settings.effective.maxDepth.toNat < Word.count 32 - 1)
    (hdepth : progress.depth.toNat ≤ scope.settings.effective.maxDepth.toNat + 1) :
    (∀ k, (answers t).findIdx? (·.calls.isEmpty) = some k →
        (answers t).length = k + 1 ∧
          progress.depth.toNat + k ≤ scope.settings.effective.maxDepth.toNat) ∧
      ((answers t).findIdx? (·.calls.isEmpty) = none →
        progress.depth.toNat + (answers t).length =
          scope.settings.effective.maxDepth.toNat + 1) := by
  induction hloop with
  | unseen | working => cases ho
  | @halted _ _ _ fault => cases fault <;> cases ho
  | capped progress hdeep =>
    have hnone : answers [.piece (depthNotice scope.settings.effective.maxDepth)] = [] := rfl
    have hdeep := UInt32.lt_iff_toNat_lt.mp hdeep
    rw [hnone]
    constructor
    · intro k hk
      cases hk
    · intro _
      rw [List.length_nil]
      omega
  | @last progress hmore level _ hlevel hcalls =>
    have hbelow := toNat_depth_le hmore
    have hquiet : [level.stream].findIdx? (·.calls.isEmpty) = some 0 := by
      simp [List.findIdx?_cons, hcalls]
    rw [hlevel.answers_exchanges, hquiet]
    constructor
    · rintro k ⟨⟩
      exact ⟨rfl, hbelow⟩
    · intro hnone
      cases hnone
  | @level progress hmore level _ hlevel hcalls t _ _ ih =>
    have hnext : (progress.after level).depth.toNat = progress.depth.toNat + 1 :=
      toNat_depth_succ hmax hmore
    have hbelow := toNat_depth_le hmore
    obtain ⟨hsome, hnone⟩ := ih ho (by omega)
    have hcalling : level.stream.calls.isEmpty = false := by simpa using hcalls
    rw [answers_append, hlevel.answers_exchanges, List.singleton_append, List.findIdx?_cons,
      hcalling, List.length_cons]
    constructor
    · intro k hk
      obtain ⟨j, hj, rfl⟩ := Option.map_eq_some_iff.mp hk
      obtain ⟨hlength, hle⟩ := hsome j hj
      constructor <;> omega
    · intro hk
      have hlength := hnone (Option.map_eq_none_iff.mp hk)
      omega

/-- The batches that are run on levels: those of the levels whose answers make calls. -/
def batches (levels : List Level) : List (List ExecutionRecord) :=
  (levels.map (·.batch)).filter (!·.isEmpty)

/-- How a turn accounts for its levels. -/
structure Accounts (scope : TurnScope) (turn : Turn) (session : SessionId) (levels : List Level)
    (t : List TurnExchange) : Prop where
  /-- The model is called once on each level. -/
  called : (requested t).length = levels.length
  /-- A turn whose answers come to one without calls ends with the first of them, at a depth that is
  allowed. Behind each level before it, a batch is run, and no notice is delivered. -/
  shallow : ∀ k, levels.findIdx? (·.stream.calls.isEmpty) = some k →
    levels.length = k + 1 ∧ k + 1 ≤ scope.settings.effective.maxDepth.toNat ∧
      (batches levels).length = k ∧ delivered t = (streamed levels).map .ok
  /-- Any other turn has as many levels as the depth allows, each with a batch. The notice is the
  last item, and the reply holds the text and the successes of all levels. -/
  deep : levels.findIdx? (·.stream.calls.isEmpty) = none →
    levels.length = scope.settings.effective.maxDepth.toNat ∧
      (batches levels).length = scope.settings.effective.maxDepth.toNat ∧
      delivered t = (streamed levels ++ [depthNotice scope.settings.effective.maxDepth]).map .ok ∧
      ∃ draft, replies t = [(session, draft)] ∧ draft.content = String.join (streamed levels) ∧
        draft.toolRecords = (turn.executed levels).filter (·.success)

/-- Where nothing fails, every call of the model is answered. -/
private theorem length_requested {t : List TurnExchange} (hfaultless : faults t = []) :
    (requested t).length = (answers t).length := by
  induction t with
  | nil => rfl
  | cons exchange t ih =>
    have hrest : faults t = [] := by
      rw [← List.singleton_append, faults_append] at hfaultless
      exact (List.append_eq_nil_iff.mp hfaultless).2
    obtain ⟨effect, answer⟩ := exchange
    cases effect with
    | complete request =>
      cases answer with
      | error fault => cases hfaultless
      | ok stream => exact congrArg (· + 1) (ih hrest)
    | _ => exact ih hrest

section Batches

variable {levels : List Level} (hall : ∀ level ∈ levels, level.Complete scope turn session)
include hall

/-- A batch is run on each level whose answer makes calls. -/
private theorem length_batches :
    (batches levels).length = levels.countP (!·.stream.calls.isEmpty) := by
  rw [batches, ← List.countP_eq_length_filter, List.countP_map]
  refine List.countP_congr fun level hmem => ?_
  have hlength := (hall level hmem).completed.length_eq
  simp only [Function.comp_apply, Bool.not_eq_true', List.isEmpty_eq_false_iff,
    ← List.length_pos_iff, hlength]

/-- When the last answer is the first without calls, there are batches on all levels but the last. -/
private theorem length_batches_of_quiet {k : Nat}
    (hquiet : levels.findIdx? (·.stream.calls.isEmpty) = some k) (hlast : levels.length = k + 1) :
    (batches levels).length = k := by
  rw [length_batches hall]
  clear hall
  induction levels generalizing k with
  | nil => cases hquiet
  | cons level levels ih =>
    rw [List.findIdx?_cons] at hquiet
    cases hcalls : level.stream.calls.isEmpty with
    | true =>
      simp only [hcalls, if_true, Option.some.injEq] at hquiet
      subst hquiet
      have hnone : levels = [] := List.length_eq_zero_iff.mp (Nat.succ.inj hlast)
      simp [hnone, hcalls]
    | false =>
      simp only [hcalls, Bool.false_eq_true, if_false, Option.map_eq_some_iff] at hquiet
      obtain ⟨j, hj, rfl⟩ := hquiet
      have hrest := ih hj (Nat.succ.inj hlast)
      simp [hcalls, hrest]

/-- When all answers make calls, there are batches on all levels. -/
private theorem length_batches_of_calling
    (hcalling : levels.findIdx? (·.stream.calls.isEmpty) = none) :
    (batches levels).length = levels.length := by
  rw [length_batches hall, List.countP_eq_length]
  intro level hmem
  simp [List.findIdx?_eq_none_iff.mp hcalling level hmem]

end Batches

/-- The greatest depth that a turn works with allows one level. -/
private theorem toNat_maxDepth_pos (scope : TurnScope) :
    0 < scope.settings.effective.maxDepth.toNat := by
  have hne := scope.settings.maxDepth_effective_ne_zero
  rw [Ne, ← UInt32.toNat_inj] at hne
  exact Nat.pos_of_ne_zero hne

/-- Where a batch is run, records are executed. -/
private theorem executed_ne_nil (turn : Turn) {levels : List Level} (hsome : batches levels ≠ []) :
    turn.executed levels ≠ [] := by
  intro hnone
  obtain ⟨-, hempty⟩ := List.append_eq_nil_iff.mp hnone
  refine hsome (List.filter_eq_nil_iff.mpr ?_)
  intro batch hmem
  obtain ⟨level, hlevel, rfl⟩ := List.mem_map.mp hmem
  simp [List.flatMap_eq_nil_iff.mp hempty level hlevel]

/-- The answers of the model to a turn that ends well are those of its loop over the levels. -/
private theorem Performed.depth {t : List TurnExchange} {o : Option (Except Fault Unit)}
    (hperform : Performed hangs scope turn t o) (ho : o = some (.ok ()))
    (hmax : scope.settings.effective.maxDepth.toNat < Word.count 32 - 1) :
    (∀ k, (answers t).findIdx? (·.calls.isEmpty) = some k →
        (answers t).length = k + 1 ∧ k + 1 ≤ scope.settings.effective.maxDepth.toNat) ∧
      ((answers t).findIdx? (·.calls.isEmpty) = none →
        (answers t).length = scope.settings.effective.maxDepth.toNat) := by
  cases hperform with
  | outside | noSession | unheard | refused => cases ho
  | @halted _ _ _ _ _ fault => cases fault <;> cases ho
  | @concluded entry t₁ t₂ session henter id progress hloop _ hconclude =>
    have hfirst : turn.start.depth.toNat = 1 := rfl
    obtain ⟨hquiet, hcalling⟩ := hloop.depth rfl hmax (by omega)
    have hentry : answers entry = [] := by cases henter <;> rfl
    have hending : answers t₂ = [] := by cases hconclude <;> rfl
    have hheard : answers (entry ++ ⟨.append session (.user turn.content), .ok id⟩ :: (t₁ ++ t₂)) =
        answers t₁ := by
      rw [answers_append, hentry, List.nil_append, ← List.singleton_append, answers_append,
        answers_append, hending, List.append_nil]
      rfl
    rw [hheard]
    constructor
    · intro k hk
      obtain ⟨hlength, hle⟩ := hquiet k hk
      exact ⟨hlength, by omega⟩
    · intro hnone
      have hlength := hcalling hnone
      omega

private theorem answers_before {lookup : List TurnExchange}
    (hlookup : Assignment.LookedUp lookup) : answers lookup = [] := by
  cases hlookup <;> rfl

/-- What a turn persists and how many answers there were account for its levels. -/
private theorem accounts_of_persists {t : List TurnExchange} {levels : List Level} {capped : Bool}
    (hpersists : Persists scope turn session levels capped t) (hfaultless : faults t = [])
    (hdepth : (∀ k, (answers t).findIdx? (·.calls.isEmpty) = some k →
        (answers t).length = k + 1 ∧ k + 1 ≤ scope.settings.effective.maxDepth.toNat) ∧
      ((answers t).findIdx? (·.calls.isEmpty) = none →
        (answers t).length = scope.settings.effective.maxDepth.toNat)) :
    Accounts scope turn session levels t := by
  obtain ⟨hquiet, hcalling⟩ := hdepth
  have hfind : (answers t).findIdx? (·.calls.isEmpty) =
      levels.findIdx? (·.stream.calls.isEmpty) := by
    rw [hpersists.answered, List.findIdx?_map]
    rfl
  have hlength : (answers t).length = levels.length := by
    rw [hpersists.answered, List.length_map]
  rw [hfind, hlength] at hquiet hcalling
  refine ⟨(length_requested hfaultless).trans hlength, ?_, ?_⟩
  · intro k hk
    obtain ⟨hlast, hle⟩ := hquiet k hk
    refine ⟨hlast, hle, length_batches_of_quiet hpersists.complete hk hlast, ?_⟩
    have hcapped : capped = false := by
      rw [← Bool.not_eq_true, hpersists.deep]
      intro hall
      obtain ⟨hbound, hempty, -⟩ := List.findIdx?_eq_some_iff_getElem.mp hk
      exact hall _ (List.getElem_mem hbound) (List.isEmpty_iff.mp hempty)
    have hsent := hpersists.sent
    rw [hcapped] at hsent
    simpa [closing] using hsent
  · intro hnone
    have hlast := hcalling hnone
    have hbatches := length_batches_of_calling hpersists.complete hnone
    have hcapped : capped = true := by
      rw [hpersists.deep]
      intro level hmem
      simpa using List.findIdx?_eq_none_iff.mp hnone level hmem
    have hexecuted : turn.executed levels ≠ [] := by
      have hpositive := toNat_maxDepth_pos scope
      rw [← hbatches.trans hlast] at hpositive
      exact executed_ne_nil turn (List.length_pos_iff.mp hpositive)
    have hreplied := hpersists.replied.mpr (.inr hexecuted)
    refine ⟨hlast, hbatches.trans hlast, ?_, ?_⟩
    · rw [hpersists.sent, hcapped]
      rfl
    · obtain ⟨⟨replySession, draft⟩, hreply⟩ : ∃ reply, replies t = [reply] := by
        refine List.length_eq_one_iff.mp ?_
        have hsome := List.length_pos_iff.mpr hreplied
        have honce := hpersists.once
        omega
      obtain ⟨rfl, hcontent, hrecords, -⟩ := hpersists.reply _ (hreply ▸ List.mem_singleton_self _)
      exact ⟨draft, hreply, hcontent, hrecords⟩

/-- An assignment comes to a stand only at an answer of the model that never ends. -/
theorem patient_assignment (assignment : Assignment)
    (hmax : scope.settings.effective.maxDepth.toNat < Word.count 32 - 1)
    (hhorizon : scope.settings.effective.maxDepth.toNat < scope.horizon) {t : List TurnExchange}
    (hcourse : (assignment.heedful scope).attended.Course (· = .waitForever) t none) :
    ∃ stream ∈ answers t, stream.ending = .never := by
  cases assignment with
  | prepared turn => exact (patient_perform turn hmax hhorizon).reported hcourse
  | requested request => exact (TurnRequest.patient_perform request hmax hhorizon).reported hcourse

/-- A turn for which nothing fails comes to an end, and it accounts for its levels. -/
theorem accounts_run {σ : Type} (assignment : Assignment) (scope : TurnScope)
    (host : Program.Host Effect Effect.Answer σ) (s : σ) (turn : Turn)
    (hresolves : assignment.Resolves (assignment.run scope .steady host s).exchanges turn)
    (hfaultless : faults (assignment.run scope .steady host s).exchanges = [])
    (hanswers : ∀ effect, host effect (assignment.run scope .steady host s).state = none →
      effect = .waitForever)
    (hends : ∀ stream ∈ answers (assignment.run scope .steady host s).exchanges,
      stream.ending ≠ .never)
    (hmax : scope.settings.effective.maxDepth.toNat < Word.count 32 - 1)
    (hhorizon : scope.settings.effective.maxDepth.toNat < scope.horizon) :
    (assignment.run scope .steady host s).outcome = some () ∧
      ∃ session levels capped,
        Persists scope turn session levels capped
          (assignment.run scope .steady host s).exchanges ∧
        Accounts scope turn session levels (assignment.run scope .steady host s).exchanges := by
  have hended : (assignment.run scope .steady host s).outcome = some () := by
    cases houtcome : (assignment.run scope .steady host s).outcome with
    | some _ => rfl
    | none =>
      have hcourse := Program.course_run host (assignment.heedful scope).attended s
      rw [← Listener.run_steady host _ 0 s, ← Assignment.run, houtcome] at hcourse
      obtain ⟨stream, hmem, hnever⟩ :=
        patient_assignment assignment hmax hhorizon (hcourse.mono hanswers)
      exact absurd hnever (hends stream hmem)
  refine ⟨hended, ?_⟩
  obtain ⟨lookup, t, hlookup, ht, hreported⟩ :=
    Assignment.reported_of_resolves (assignment.reported_run scope host s) hresolves
  rw [hended] at hreported
  rw [ht] at hfaultless ⊢
  cases hreported with
  | ended hperform =>
    obtain ⟨session, levels, capped, hpersists⟩ := persists_of_performed hlookup hperform rfl
    refine ⟨session, levels, capped, hpersists, accounts_of_persists hpersists hfaultless ?_⟩
    rw [answers_append, answers_before hlookup, List.nil_append]
    exact hperform.depth rfl hmax
  | @told t fault hperform =>
    obtain ⟨before, call, pieces, hbreaks⟩ := hperform.candid.of_error
    have hshown : faults (before ++ call :: pieces.map .piece) ≠ [] := by
      simp [faults, hbreaks.fault]
    refine absurd ?_ hshown
    rw [← hbreaks.trace]
    simp only [faults_append, List.append_eq_nil_iff] at hfaultless
    exact hfaultless.2.1

/-- A turn that may call the model once: the model asks for a tool, which is run, and no second
answer is heard. -/
theorem accounts_run_obliging :
    let clock : Tool := ⟨"1", "clock", "", .native, true, emptySchemaText⟩
    let prompt : Prompt := ⟨"p", "Be brief.", true⟩
    let turn : Turn := ⟨⟨"a", "A", [prompt], [clock], ⟨"m", 0, none⟩⟩, prompt, "Hello", none, []⟩
    let scope : TurnScope := ⟨{ TurnSettings.standard with maxDepth := 1 }, fun _ => true, 2⟩
    let asking : ModelStream :=
      ⟨[.ok ⟨some "Let me see. ", [⟨0, none, some "clock", some ""⟩], true⟩], false⟩
    let run := (Assignment.prepared turn).run scope .steady obliging [asking, asking]
    run.outcome = some () ∧ ∃ session levels capped,
      Persists scope turn session levels capped run.exchanges ∧
        Accounts scope turn session levels run.exchanges := by
  intro clock prompt turn scope asking run
  refine accounts_run (.prepared turn) scope obliging [asking, asking] turn rfl ?_ ?_ ?_ ?_ ?_
  · decide +kernel
  · have hleft : run.state ≠ [] := by
      rw [← List.length_pos_iff]
      decide +kernel
    obtain ⟨stream, streams, hstate⟩ := List.exists_cons_of_ne_nil hleft
    intro effect hnone
    rw [hstate] at hnone
    cases effect <;> first | rfl | cases hnone
  · decide +kernel
  · decide
  · decide

end Turn

end Colloquy
