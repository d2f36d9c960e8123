import Colloquy.Proofs.Turn.Gains

/-!
# How a turn consults the model

On each level a turn reads the history of its session and asks the model about one content. So its
requests are told by the histories that it was told and by the contents: the first content is the
message of the person, and every other is what the batch of the level before came to. Nothing is
asked besides, neither in front of the levels nor behind them.
-/

namespace Colloquy

/-- One time that the model is asked in a turn. -/
structure Consultation where
  /-- The history that the model is shown. -/
  history : List Message
  /-- The content that it is asked about. -/
  content : String

namespace Turn

variable {hangs : Effect → Prop} {scope : TurnScope} {turn : Turn} {session : SessionId}
  {t : List TurnExchange}

/-- Whether a turn works in a session: it is the one that is given, or else one that was opened in
the exchanges of the turn. -/
def WorksIn (turn : Turn) (t : List TurnExchange) (session : SessionId) : Prop :=
  turn.session = some session ∨
    turn.session = none ∧ ∃ title, ⟨.openSession turn.agent.id title, .ok session⟩ ∈ t

/-- The request of a consultation. -/
def asks (turn : Turn) (previewChars : Nat) (consultation : Consultation) : CompletionRequest :=
  turn.request previewChars consultation.history consultation.content

/-- The consultations of a turn and the levels that are behind all but the last one. -/
structure Consulted (scope : TurnScope) (turn : Turn) (session : SessionId) (content : String)
    (levels : List Level) (consultations : List Consultation) (t : List TurnExchange) : Prop where
  /-- The levels are complete, and their answers make calls. -/
  complete : ∀ level ∈ levels, level.Complete scope turn session ∧ level.stream.calls ≠ []
  /-- Their answers are the first that the model gave. -/
  answered : levels.map (·.stream) <+: answers t
  /-- Their batches are the first that were handled. -/
  handled : levels.flatMap (·.work) <+: handling t
  /-- The histories were told. -/
  told : ∀ consultation ∈ consultations,
    ⟨.recentHistory session scope.settings.effective.historyLimit, .ok consultation.history⟩ ∈ t
  /-- The first content is given, and every other is what the batch of the level before came to. -/
  contents : consultations.map (·.content) = content :: levels.map fun level =>
    followUp level.batch
  /-- There is a request for each consultation. -/
  requests : requested t = consultations.map (turn.asks scope.settings.effective.previewChars)

section Levels

variable {content : String} {levels : List Level} {consultations : List Consultation}

theorem requested_opening (level : Level) :
    requested (level.opening scope turn session) =
      [turn.request scope.settings.effective.previewChars level.history level.content] :=
  congrArg (_ :: ·) (requested_pieces level.stream.texts)

theorem requested_exchanges {level : Level} (hlevel : level.Complete scope turn session) :
    requested (level.exchanges scope turn session) =
      [turn.request scope.settings.effective.previewChars level.history level.content] := by
  rw [Level.exchanges, requested_append, requested_opening, requested_of_work hlevel.isWork,
    List.append_nil]

/-- The first thing on a level is that its history is told. -/
private theorem told_mem_opening (level : Level) :
    ⟨.recentHistory session scope.settings.effective.historyLimit, .ok level.history⟩ ∈
      level.opening scope turn session :=
  List.mem_cons_self

/-- A single request is that of a consultation about the first content. -/
private theorem consulted_of_requested {history : List Message}
    (htold : ⟨.recentHistory session scope.settings.effective.historyLimit, .ok history⟩ ∈ t)
    (h : requested t =
      [turn.request scope.settings.effective.previewChars history content]) :
    Consulted scope turn session content [] [⟨history, content⟩] t where
  complete _ := nofun
  answered := List.nil_prefix
  handled := List.nil_prefix
  told := List.forall_mem_singleton.mpr htold
  contents := rfl
  requests := h

/-- The beginning of a level has asked nothing yet, or what it was to ask. -/
private theorem consulted_of_opening {level : Level}
    (hpart : t <+: level.opening scope turn session) :
    requested t = [] ∨
      Consulted scope turn session level.content [] [⟨level.history, level.content⟩] t := by
  rw [Level.opening] at hpart
  obtain rfl | ⟨behind, rfl, hbehind⟩ := List.prefix_cons_iff.mp hpart
  · exact .inl rfl
  obtain rfl | ⟨pieces, rfl, hpieces⟩ := List.prefix_cons_iff.mp hbehind
  · exact .inl rfl
  · obtain ⟨rest, hrest⟩ := hpieces
    have hnone : requested pieces ++ requested rest = [] := by
      rw [← requested_append, hrest, requested_pieces]
    refine .inr (consulted_of_requested List.mem_cons_self ?_)
    exact congrArg (_ :: ·) (List.append_eq_nil_iff.mp hnone).1

private theorem Halted.consulted {fault : Option Fault}
    (h : Halted hangs scope turn session content t fault) :
    requested t = [] ∨
      ∃ levels consultations, Consulted scope turn session content levels consultations t := by
  cases h with
  | stalled level hcontent hpart hstall =>
    rw [← hcontent]
    exact (consulted_of_opening hpart).imp_right fun hone => ⟨_, _, hone⟩
  | noHistory fault => exact .inl rfl
  | noModel history fault =>
    exact .inr ⟨_, _, consulted_of_requested List.mem_cons_self rfl⟩
  | brokenOff level hcontent hending =>
    rw [← hcontent]
    exact (consulted_of_opening List.prefix_rfl).imp_right fun hone => ⟨_, _, hone⟩

/-- Behind a level whose answer makes calls, the next content is what its batch came to. -/
private theorem Consulted.behind {level : Level} (hlevel : level.Complete scope turn session)
    (hcalls : level.stream.calls ≠ [])
    (hrest : Consulted scope turn session (followUp level.batch) levels consultations t) :
    Consulted scope turn session level.content (level :: levels)
      (⟨level.history, level.content⟩ :: consultations)
      (level.exchanges scope turn session ++ t) where
  complete := List.forall_mem_cons.mpr ⟨⟨hlevel, hcalls⟩, hrest.complete⟩
  answered := by
    rw [answers_append, hlevel.answers_exchanges]
    exact (List.prefix_append_right_inj [level.stream]).mpr hrest.answered
  handled := by
    rw [handling_append, hlevel.handling_exchanges]
    exact (List.prefix_append_right_inj level.work).mpr hrest.handled
  told := by
    refine List.forall_mem_cons.mpr ⟨?_, fun consultation hmem => ?_⟩
    · exact List.mem_append_left _ (List.mem_append_left _ (told_mem_opening level))
    · exact List.mem_append_right _ (hrest.told consultation hmem)
  contents := congrArg (level.content :: ·) hrest.contents
  requests := by
    rw [requested_append, requested_exchanges hlevel, hrest.requests]
    rfl

/-- The levels ask nothing, or for their contents one after another. -/
theorem Loop.consulted {progress : Progress} {o : Option (Except Fault Progress)}
    (h : Loop hangs scope turn session progress t o) :
    requested t = [] ∨ ∃ levels consultations,
      Consulted scope turn session progress.content levels consultations t := by
  induction h with
  | unseen | capped => exact .inl rfl
  | halted hdepth hhalted => exact hhalted.consulted
  | working hdepth level hcontent hlevel hpart =>
    have hwork := requested_of_work fun exchange hmem =>
      hlevel.isWork exchange (hpart.subset hmem)
    rw [← hcontent]
    refine .inr ⟨[], _, consulted_of_requested
      (List.mem_append_left _ (told_mem_opening level)) ?_⟩
    rw [requested_append, requested_opening, hwork, List.append_nil]
  | last hdepth level hcontent hlevel hcalls =>
    rw [← hcontent]
    exact .inr ⟨[], _, consulted_of_requested
      (List.mem_append_left _ (told_mem_opening level)) (requested_exchanges hlevel)⟩
  | level hdepth level hcontent hlevel hcalls hrest ih =>
    rw [← hcontent]
    obtain hnone | ⟨levels, consultations, hconsulted⟩ := ih
    · refine .inr ⟨[], _, consulted_of_requested
        (List.mem_append_left _ (List.mem_append_left _ (told_mem_opening level))) ?_⟩
      rw [requested_append, requested_exchanges hlevel, hnone, List.append_nil]
    · exact .inr ⟨_, _, hconsulted.behind hlevel hcalls⟩

end Levels

/-- What a turn has behind it when the person has spoken: perhaps the look-up of its agent, the
opening of its session unless that is given, and the message. -/
structure Heard (turn : Turn) (session : SessionId) (t : List TurnExchange) : Prop where
  /-- The turn works in the session. -/
  entered : ∀ rest, turn.WorksIn (t ++ rest) session
  /-- The message is all that was said in the session. -/
  said : saidIn session t = [.user turn.content]
  /-- The session took it. -/
  appended : ∃ id, ⟨.append session (.user turn.content), .ok id⟩ ∈ t
  /-- The model did not answer yet. -/
  answered : answers t = []
  /-- No call was handled. -/
  handled : handling t = []
  /-- The model was not asked. -/
  requested : requested t = []

private theorem Entered.heard {lookup : List TurnExchange} (hlookup : Assignment.LookedUp lookup)
    (henter : Entered turn t session) (id : MessageId) :
    Heard turn session (lookup ++ (t ++ [⟨.append session (.user turn.content), .ok id⟩])) where
  entered rest := by
    rw [← List.append_assoc, List.append_assoc]
    exact henter.given_or_opened
  said := by
    have hnothing : additions lookup = [] := by cases hlookup <;> rfl
    rw [saidIn, additions_append, additions_append, hnothing, henter.additions_eq]
    simp [additions, TurnExchange.addition?]
  appended := ⟨id, by simp⟩
  answered := by cases hlookup <;> cases henter <;> rfl
  handled := by cases hlookup <;> cases henter <;> rfl
  requested := by cases hlookup <;> cases henter <;> rfl

/-- Exchanges in which the model is not asked and no call is handled. -/
structure Idle (t : List TurnExchange) : Prop where
  /-- The model is not asked. -/
  requested : requested t = []
  /-- No call is handled. -/
  handled : handling t = []

theorem Idle.append {t' : List TurnExchange} (h : Idle t) (h' : Idle t') : Idle (t ++ t') where
  requested := by rw [requested_append, h.requested, h'.requested, List.append_nil]
  handled := by rw [handling_append, h.handled, h'.handled, List.append_nil]

/-- Exchanges are idle, or all that is not idle in them happens on the levels of a turn, which come
behind the message of the person. -/
def OnLevels (scope : TurnScope) (turn : Turn) (t : List TurnExchange) : Prop :=
  Idle t ∨ ∃ session before work behind o, Heard turn session before ∧
    t = before ++ (work ++ behind) ∧
    Loop (fun _ => True) scope turn session turn.start work o ∧ Idle behind

private theorem Performed.onLevels {lookup : List TurnExchange}
    (hlookup : Assignment.LookedUp lookup) {o : Option (Except Fault Unit)}
    (h : Performed (fun _ => True) scope turn t o) : OnLevels scope turn (lookup ++ t) := by
  cases h with
  | outside | noSession => exact .inl (by cases hlookup <;> exact ⟨rfl, rfl⟩)
  | unheard henter | refused henter =>
    exact .inl (by cases hlookup <;> cases henter <;> exact ⟨rfl, rfl⟩)
  | halted henter id hloop =>
    refine .inr ⟨_, _, _, [], _, henter.heard hlookup id, ?_, hloop, ⟨rfl, rfl⟩⟩
    simp only [List.append_assoc, List.singleton_append, List.append_nil]
  | @concluded entry work behind session henter id _ hloop _ hconclude =>
    have hbehind : Idle behind := by cases hconclude <;> exact ⟨rfl, rfl⟩
    refine .inr ⟨session, _, work, behind, _, henter.heard hlookup id, ?_, hloop, hbehind⟩
    simp only [List.append_assoc, List.singleton_append]

/-- The delivery of a fault is idle. -/
theorem onLevels_of_reported {lookup : List TurnExchange}
    (hlookup : Assignment.LookedUp lookup) {o : Option Unit}
    (h : Heedful.Reported (fun _ => True) (turn.Performed (fun _ => True) scope) t o) :
    OnLevels scope turn (lookup ++ t) := by
  cases h with
  | stalled hgoes | ended hgoes | untold hgoes => exact hgoes.onLevels hlookup
  | @told t fault hgoes =>
    have hreport : Idle [.report fault] := ⟨rfl, rfl⟩
    rw [← List.append_assoc]
    obtain hidle | ⟨session, before, work, behind, o, hheard, ht, hloop, hbehind⟩ :=
      hgoes.onLevels hlookup
    · exact .inl (hidle.append hreport)
    · refine .inr ⟨session, before, work, _, o, hheard, ?_, hloop, hbehind.append hreport⟩
      rw [ht, List.append_assoc, List.append_assoc]

/-- Whoever listens and however a turn ends, all that is not idle happens on its levels. -/
theorem onLevels_run {σ : Type} (assignment : Assignment) (scope : TurnScope)
    (listener : Listener) (host : Program.Host Effect Effect.Answer σ) (s : σ) (turn : Turn)
    (hresolves : assignment.Resolves (assignment.run scope listener host s).exchanges turn) :
    OnLevels scope turn (assignment.run scope listener host s).exchanges := by
  obtain ⟨left, hreaches⟩ := assignment.reaches_run scope listener host s
  obtain ⟨o, hreported⟩ := Assignment.reported_of_reaches hreaches
  obtain ⟨lookup, t, hlookup, ht, hturn⟩ := Assignment.reported_of_resolves hreported hresolves
  rw [ht]
  exact onLevels_of_reported hlookup hturn

namespace Heard

variable {before work behind : List TurnExchange}

theorem answers_within (h : Heard turn session before) :
    answers work <+: answers (before ++ (work ++ behind)) := by
  rw [answers_append, answers_append, h.answered, List.nil_append]
  exact List.prefix_append _ _

theorem handling_within (h : Heard turn session before) :
    handling work <+: handling (before ++ (work ++ behind)) := by
  rw [handling_append, handling_append, h.handled, List.nil_append]
  exact List.prefix_append _ _

/-- What a turn asks on its levels is all that it asks. -/
theorem requested_within (h : Heard turn session before) (hbehind : Colloquy.requested behind = []) :
    Colloquy.requested (before ++ (work ++ behind)) = Colloquy.requested work := by
  rw [requested_append, requested_append, h.requested, hbehind, List.nil_append, List.append_nil]

end Heard

/-- The consultations on the levels of a turn are all that it has. -/
private theorem Consulted.within {content : String} {levels : List Level}
    {consultations : List Consultation} {before work behind : List TurnExchange}
    (h : Consulted scope turn session content levels consultations work)
    (hheard : Heard turn session before) (hbehind : requested behind = []) :
    Consulted scope turn session content levels consultations (before ++ (work ++ behind)) where
  complete := h.complete
  answered := h.answered.trans hheard.answers_within
  handled := h.handled.trans hheard.handling_within
  told consultation hmem :=
    List.mem_append_right _ (List.mem_append_left _ (h.told consultation hmem))
  contents := h.contents
  requests := (hheard.requested_within hbehind).trans h.requests

/-- A turn asks nothing, or for its contents one after another, whoever listens and however it
ends. -/
theorem consulted_run {σ : Type} (assignment : Assignment) (scope : TurnScope)
    (listener : Listener) (host : Program.Host Effect Effect.Answer σ) (s : σ) (turn : Turn)
    (hresolves : assignment.Resolves (assignment.run scope listener host s).exchanges turn) :
    requested (assignment.run scope listener host s).exchanges = [] ∨
      ∃ session levels consultations, turn.WorksIn
          (assignment.run scope listener host s).exchanges session ∧
        Consulted scope turn session turn.content levels consultations
          (assignment.run scope listener host s).exchanges := by
  obtain hidle | ⟨session, before, work, behind, o, hheard, hparts, hloop, hbehind⟩ :=
    onLevels_run assignment scope listener host s turn hresolves
  · exact .inl hidle.requested
  rw [hparts]
  obtain hnone | ⟨levels, consultations, hconsulted⟩ := hloop.consulted
  · exact .inl ((hheard.requested_within hbehind.requested).trans hnone)
  · exact .inr ⟨session, levels, consultations, hheard.entered _,
      hconsulted.within hheard hbehind.requested⟩

end Turn

end Colloquy
