import Colloquy.Proofs.Store.Transcripts
import Colloquy.Proofs.Turn.Consultations

/-!
# The prompts of a turn

All that the model is asked in a turn differs only in its last section. On each level the prompt is
composed anew from the history as it is read there; but where nobody else says anything in the
session meanwhile, the end of its transcript stays what it was when the person had spoken, and so
every prompt begins with the same words. The last section is the message of the person on the first
level, and on every other what the batch of the level before came to.
-/

namespace Colloquy

namespace PromptText

/-- The section of the messages that are shown, each cut to some number of characters. -/
def shownSection (previewChars : Nat) (shown : List Utterance) : String :=
  "Conversation history:" ++ String.join (shown.map fun utterance =>
    "\n" ++ utterance.speaker ++ ": " ++ preview utterance.content previewChars)

/-- The sections of a prompt in front of the new content, each with the empty line behind it: the
instructions unless they are blank, and the messages that are shown if there are any. -/
def context (system : String) (previewChars : Nat) (shown : List Utterance) : String :=
  (if Text.isBlankText system then "" else Text.trimEnd system ++ "\n\n") ++
    if shown.isEmpty then "" else shownSection previewChars shown ++ "\n\n"

/-- Sections have the separator between them, and so in front of the last one. -/
private theorem intercalate_concat (separator last : String) (sections : List String) :
    separator.intercalate (sections ++ [last]) =
      String.join (sections.map (· ++ separator)) ++ last := by
  induction sections with
  | nil => simp
  | cons first rest ih =>
    have hrest : rest ++ [last] ≠ [] := by simp
    rw [List.cons_append, String.intercalate_cons_of_ne_nil hrest, ih, List.map_cons,
      String.join_cons]
    simp only [String.append_assoc]

/-- The section of a history is told by what its messages say. -/
private theorem historySection_eq_shownSection (previewChars : Nat) (history : List Message) :
    historySection previewChars (history.map fun message => (message.role, message.content)) =
      shownSection previewChars (history.map Message.utterance) := by
  unfold historySection shownSection
  rw [List.map_map, List.map_map]
  rfl

/-- A prompt is what stands in front of the new content, and then the content. -/
theorem compose_eq_context (system : String) (previewChars : Nat) (history : List Message)
    (content : String) :
    compose system previewChars (history.map fun message => (message.role, message.content))
        content =
      context system previewChars (history.map Message.utterance) ++ ("user: " ++ content) := by
  rw [compose, intercalate_concat, sections, context, List.map_append, String.join_append,
    List.isEmpty_map, List.isEmpty_map, historySection_eq_shownSection]
  congr 2
  · cases Text.isBlankText system <;> simp
  · cases history.isEmpty <;> simp

end PromptText

section Keeping

variable {σ τ : Type} [SessionStore τ] [TranscriptStore τ]

/-- A host keeps a session in a store: the histories of the session that it tells are those of the
store, and nothing is said in the session but what is appended there by the exchanges with the host
themselves. -/
structure KeepsSession (host : Program.Host Effect Effect.Answer σ) (store : σ → τ)
    (session : SessionId) : Prop where
  /-- A history that is told is one of the store. -/
  told : ∀ limit s history next,
    host (.recentHistory session limit) s = some (.ok history, next) →
      ∃ now, SessionStore.recentHistory now session limit (store s) = .ok history
  /-- Nothing else is said in the session. -/
  grown : ∀ effect s answer next, host effect s = some (answer, next) →
    TranscriptStore.transcript session (store next) =
      TranscriptStore.transcript session (store s) ++
        (saidIn session [⟨effect, answer⟩]).map Draft.utterance

namespace KeepsSession

variable {host : Program.Host Effect Effect.Answer σ} {store : σ → τ} {session : SessionId}

/-- Behind exchanges, there is in a session what was there before and what was said in them. -/
theorem transcript_of_leads (hkeeps : KeepsSession host store session) {s s' : σ}
    {t : List TurnExchange} (hleads : host.Leads s t s') :
    TranscriptStore.transcript session (store s') =
      TranscriptStore.transcript session (store s) ++ (saidIn session t).map Draft.utterance := by
  induction t generalizing s with
  | nil =>
    obtain rfl : s = s' := hleads
    exact (List.append_nil _).symm
  | cons exchange t ih =>
    obtain ⟨next, hanswer, hrest⟩ := hleads
    rw [ih hrest, hkeeps.grown _ s _ next hanswer, List.append_assoc, ← List.map_append,
      ← saidIn_append]
    rfl

/-- While nothing is added anywhere, all histories of a session are the end of one transcript, which
is what was there before and what was said up to then. -/
theorem history_eq (hkeeps : KeepsSession host store session) {s s' : σ}
    {before t behind : List TurnExchange} (hleads : host.Leads s (before ++ (t ++ behind)) s')
    (hnothing : additions t = []) {limit : Nat} {history : List Message}
    (hmem : ⟨.recentHistory session limit, .ok history⟩ ∈ t) :
    history.map Message.utterance = lastOf (TranscriptStore.window τ limit)
      (TranscriptStore.transcript session (store s) ++
        (saidIn session before).map Draft.utterance) := by
  obtain ⟨first, rest, rfl⟩ := List.append_of_mem hmem
  rw [additions_append, List.append_eq_nil_iff] at hnothing
  have hsilent : saidIn session first = [] := by rw [saidIn, hnothing.1]; rfl
  have hparts : before ++ (first ++ ⟨.recentHistory session limit, .ok history⟩ :: rest ++ behind) =
      (before ++ first) ++ ⟨.recentHistory session limit, .ok history⟩ :: (rest ++ behind) := by
    simp
  rw [hparts, Program.Host.leads_append_iff] at hleads
  obtain ⟨mid, hfirst, next, hanswer, -⟩ := hleads
  obtain ⟨now, htold⟩ := hkeeps.told limit mid history next hanswer
  rw [TranscriptStore.told htold, hkeeps.transcript_of_leads hfirst, saidIn_append, hsilent,
    List.append_nil]

end KeepsSession

end Keeping

/-- Parties with a store that keeps transcripts keep a session, if no session is opened under its
name when something was said there. -/
theorem Parties.keepsSession {σ : Type} [SessionStore σ] [ExecutionLog σ] [TranscriptStore σ]
    [TranscriptLog σ] {stamp : Parties σ → Stamp} {session : SessionId}
    (hnew : ∀ parties, session = (stamp parties).name →
      TranscriptStore.transcript session parties.store = []) :
    KeepsSession (fun effect parties => parties.respond (stamp parties) effect) Parties.store
      session where
  told limit parties history next h := by
    obtain ⟨htold, -⟩ := Prod.mk.inj (Option.some.inj h)
    exact ⟨_, htold⟩
  grown effect parties answer next h := by
    cases effect with
    | openSession agentId title =>
      cases h
      exact (TranscriptStore.opened _ agentId title (hnew parties)).trans (List.append_nil _).symm
    | append other draft =>
      obtain ⟨hanswer, rfl⟩ := Prod.mk.inj (Option.some.inj h)
      cases answer with
      | error fault =>
        have hrefused := TranscriptStore.refused (Prod.ext hanswer rfl) session
        exact hrefused.trans (List.append_nil _).symm
      | ok id =>
        have htaken := TranscriptStore.taken (Prod.ext hanswer rfl) session
        refine htaken.trans (congrArg _ ?_)
        by_cases hsame : session = other
        · simp [saidIn, additions, TurnExchange.addition?, hsame]
        · simp [saidIn, additions, TurnExchange.addition?, hsame, Ne.symm hsame]
    | writeLog record =>
      cases h
      exact (TranscriptLog.written record session parties.store).trans (List.append_nil _).symm
    | invoke tool parameters =>
      obtain ⟨reply, -, hnext⟩ := Option.map_eq_some_iff.mp h
      cases hnext
      exact (List.append_nil _).symm
    | waitForever => exact answer.elim
    | _ =>
      cases h
      exact (List.append_nil _).symm

theorem Parties.keepsSession_memoryHost (session : SessionId) :
    KeepsSession Parties.memoryHost Parties.store session := by
  refine Parties.keepsSession fun parties hname => ?_
  have hnone : parties.memory.find? session = none := by
    rw [hname]
    exact parties.memory.find?_newName
  change parties.memory.transcript session = []
  rw [MemoryStore.transcript, MemoryStore.drafts, hnone]
  rfl

namespace Turn

variable {hangs : Effect → Prop} {scope : TurnScope} {turn : Turn} {session : SessionId}
  {t : List TurnExchange}

/-- The request for a content when certain messages are shown. Apart from the last words of the
prompt it is told by the agent, its prompt and the messages. -/
def prompted (turn : Turn) (previewChars : Nat) (shown : List Utterance) (content : String) :
    CompletionRequest :=
  let binding := turn.agent.model
  ⟨binding.model, binding.temperature, binding.maxTokens,
    PromptText.context turn.prompt.content previewChars shown ++ ("user: " ++ content),
    turn.agent.toolSchemas⟩

/-- What a model is shown is told by what the messages say. -/
theorem request_eq_prompted (turn : Turn) (previewChars : Nat) (history : List Message)
    (content : String) :
    turn.request previewChars history content =
      turn.prompted previewChars (history.map Message.utterance) content := by
  rw [request, prompted, PromptText.compose_eq_context]

/-- The requests of a turn and the levels that are behind all but the last one: each request is the
one for the content of its level, the content of the first level is given, and that of any other is
what the batch of the level before came to. -/
structure Asked (scope : TurnScope) (turn : Turn) (session : SessionId)
    (request : String → CompletionRequest) (content : String) (levels : List Level)
    (t : List TurnExchange) : Prop where
  /-- The levels are complete, and their answers make calls. -/
  complete : ∀ level ∈ levels, level.Complete scope turn session ∧ level.stream.calls ≠ []
  /-- Their answers are the first that the model gave. -/
  answered : levels.map (·.stream) <+: answers t
  /-- Their batches are the first that were handled. -/
  handled : levels.flatMap (·.work) <+: handling t
  /-- There is a request for each content. -/
  requests : requested t = (content :: levels.map fun level => followUp level.batch).map request

/-- A history that is told in exchanges comes down to one request for each content. -/
private def Shows (scope : TurnScope) (turn : Turn) (session : SessionId)
    (request : String → CompletionRequest) (t : List TurnExchange) : Prop :=
  ∀ history,
    ⟨.recentHistory session scope.settings.effective.historyLimit, .ok history⟩ ∈ t →
      ∀ content, turn.request scope.settings.effective.previewChars history content =
        request content

section Levels

variable {request : String → CompletionRequest} {content : String} {levels : List Level}

/-- Where all histories come down to the same words, the requests are told by the contents alone. -/
private theorem Consulted.asked {consultations : List Consultation}
    (h : Consulted scope turn session content levels consultations t)
    (hshows : Shows scope turn session request t) :
    Asked scope turn session request content levels t where
  complete := h.complete
  answered := h.answered
  handled := h.handled
  requests := by
    rw [h.requests, ← h.contents, List.map_map]
    exact List.map_congr_left fun consultation hmem =>
      hshows consultation.history (h.told consultation hmem) consultation.content

/-- The levels ask nothing, or for their contents one after another. -/
private theorem Loop.asked {progress : Progress} {o : Option (Except Fault Progress)}
    (h : Loop hangs scope turn session progress t o)
    (hshows : Shows scope turn session request t) :
    requested t = [] ∨
      ∃ levels, Asked scope turn session request progress.content levels t := by
  obtain hnone | ⟨levels, _, hconsulted⟩ := h.consulted
  · exact .inl hnone
  · exact .inr ⟨levels, hconsulted.asked hshows⟩

/-- What a turn asks on its levels is all that it asks. -/
private theorem Asked.within {before work behind : List TurnExchange}
    (h : Asked scope turn session request content levels work) (hheard : Heard turn session before)
    (hbehind : requested behind = []) :
    Asked scope turn session request content levels (before ++ (work ++ behind)) where
  complete := h.complete
  answered := h.answered.trans hheard.answers_within
  handled := h.handled.trans hheard.handling_within
  requests := (hheard.requested_within hbehind).trans h.requests

end Levels

/-- All that is asked is asked on the levels of a turn. -/
private theorem asksOnLevels_of_reported {lookup : List TurnExchange}
    (hlookup : Assignment.LookedUp lookup) {o : Option Unit}
    (h : Heedful.Reported (fun _ => True) (turn.Performed (fun _ => True) scope) t o) :
    requested (lookup ++ t) = [] ∨ ∃ session before work behind o, Heard turn session before ∧
      lookup ++ t = before ++ (work ++ behind) ∧
      Loop (fun _ => True) scope turn session turn.start work o ∧ requested behind = [] := by
  obtain hidle | ⟨session, before, work, behind, o, hheard, ht, hloop, hbehind⟩ :=
    onLevels_of_reported hlookup h
  · exact .inl hidle.requested
  · exact .inr ⟨session, before, work, behind, o, hheard, ht, hloop, hbehind.requested⟩

/-- How a turn consults the model, when its session is one of a store that stands in some way at the
beginning: the messages that are shown are the end of what was said there before and of the message
of the person behind it, the same in all requests. -/
structure Consults {τ : Type} [SessionStore τ] [TranscriptStore τ] (scope : TurnScope) (turn : Turn)
    (start : τ) (session : SessionId) (shown : List Utterance) (levels : List Level)
    (t : List TurnExchange) : Prop where
  /-- The turn works in the session. -/
  works : turn.WorksIn t session
  /-- The session took the message of the person. -/
  heard : ∃ id, ⟨.append session (.user turn.content), .ok id⟩ ∈ t
  /-- The messages that are shown are the last ones. -/
  shown_eq : shown = lastOf (TranscriptStore.window τ scope.settings.historyLimit)
    (TranscriptStore.transcript session start ++ [⟨Role.user.name, turn.content⟩])
  /-- They are as many as the settings say. -/
  shown_all : (TranscriptStore.transcript session start).length < Column.maxNumber →
    shown = lastOf scope.settings.historyLimit
      (TranscriptStore.transcript session start ++ [⟨Role.user.name, turn.content⟩])
  /-- What is asked is asked with these messages in front of the contents. -/
  asked : Asked scope turn session (turn.prompted scope.settings.previewChars shown) turn.content
    levels t

/-- All prompts of a turn begin with the same words. If nobody else says anything in its session
meanwhile, they are its instructions and the end of what was said there up to the message of the
person, however many levels there are, whoever listens and however the turn ends. -/
theorem consults_run {σ τ : Type} [SessionStore τ] [TranscriptStore τ]
    (assignment : Assignment) (scope : TurnScope) (listener : Listener)
    (host : Program.Host Effect Effect.Answer σ) (store : σ → τ) (s : σ) (turn : Turn)
    (hresolves : assignment.Resolves (assignment.run scope listener host s).exchanges turn)
    (hkeeps : ∀ session, turn.WorksIn (assignment.run scope listener host s).exchanges session →
      KeepsSession host store session) :
    requested (assignment.run scope listener host s).exchanges = [] ∨
      ∃ session shown levels, Consults scope turn (store s) session shown levels
        (assignment.run scope listener host s).exchanges := by
  have hleads := listener.leads_run host (assignment.heedful scope) 0 s
  obtain ⟨left, hreaches⟩ := assignment.reaches_run scope listener host s
  obtain ⟨o, hreported⟩ := Assignment.reported_of_reaches hreaches
  obtain ⟨lookup, t, hlookup, hwhole, hturn⟩ := Assignment.reported_of_resolves hreported hresolves
  obtain hnone | ⟨session, before, work, behind, o', hheard, hparts, hloop, hbehind⟩ :=
    asksOnLevels_of_reported hlookup hturn
  · rw [hwhole]
    exact .inl hnone
  have ht : (assignment.run scope listener host s).exchanges = before ++ (work ++ behind) :=
    hwhole.trans hparts
  change host.Leads s (assignment.run scope listener host s).exchanges _ at hleads
  rw [ht] at hkeeps hleads ⊢
  have hworks : turn.WorksIn (before ++ (work ++ behind)) session := hheard.entered _
  obtain ⟨id, happended⟩ := hheard.appended
  -- Wherever the history is read on the levels, it tells what was said up to the first of them.
  have hshows : Shows scope turn session (turn.prompted scope.settings.previewChars
      (lastOf (TranscriptStore.window τ scope.settings.historyLimit)
        (TranscriptStore.transcript session (store s) ++ [⟨Role.user.name, turn.content⟩])))
      work := by
    intro history hmem content
    have hhistory := (hkeeps session hworks).history_eq hleads hloop.additions_eq hmem
    rw [request_eq_prompted, hhistory, hheard.said]
    rfl
  obtain hnone | ⟨levels, hasked⟩ := hloop.asked hshows
  · refine .inl ?_
    rw [requested_append, requested_append, hheard.requested, hnone, hbehind]
    rfl
  · refine .inr ⟨session, _, levels, hworks, ⟨id, List.mem_append_left _ happended⟩, rfl, ?_,
      hasked.within hheard hbehind⟩
    intro hcount
    refine TranscriptStore.window_covers ?_
    rw [List.length_append]
    exact hcount

/-- A turn over two levels in a session where something was said before, of which only the end is
shown. -/
theorem consults_run_memory :
    let clock : Tool := ⟨"1", "clock", "", .native, true, emptySchemaText⟩
    let prompt : Prompt := ⟨"p", "Be brief.", true⟩
    let agent : Agent := ⟨"a", "A", [prompt], [clock], ⟨"m", 0, none⟩⟩
    let turn : Turn := ⟨agent, prompt, "What time is it?", some "s", []⟩
    let scope : TurnScope := ⟨⟨2, 9, 8, 64⟩, fun _ => true, 3⟩
    let said : List Message := [(Draft.user "Hi").toMessage "1" "s" ⟨0, 0⟩,
      (Draft.assistant "Hello, who is there?" []).toMessage "2" "s" ⟨0, 0⟩]
    let parties : Parties (MemoryStore × MemoryLog) :=
      ⟨.ofList [agent], (⟨[⟨⟨"s", "a", none, ⟨0, 0⟩, ⟨0, 0⟩⟩, said⟩]⟩, .empty),
        .ofResponses [[⟨some "Let me see. ", [⟨0, none, some "watch", none⟩], true⟩],
          [.ofText "It is noon.", .last]], .empty⟩
    let run := (Assignment.prepared turn).run scope .steady Parties.memoryHost parties
    let front := "Be brief.\n\nConversation history:\nassistant: Hello, wh\nuser: What time\n\n" ++
      "user: "
    (requested run.exchanges).map (·.prompt) =
        [front ++ "What time is it?",
          front ++ "Tool watch: Error - Tool 'watch' not found or not assigned to this agent."] ∧
      ∃ session shown levels, Consults scope turn parties.store session shown levels
        run.exchanges := by
  intro clock prompt agent turn scope said parties run front
  have hprompts : (requested run.exchanges).map (·.prompt) =
      [front ++ "What time is it?",
        front ++ "Tool watch: Error - Tool 'watch' not found or not assigned to this agent."] := by
    decide +kernel
  refine ⟨hprompts, ?_⟩
  refine (consults_run (.prepared turn) scope .steady Parties.memoryHost Parties.store parties turn
    rfl fun session _ => Parties.keepsSession_memoryHost session).resolve_left fun hnone => ?_
  rw [show requested run.exchanges = [] from hnone] at hprompts
  cases hprompts

end Turn

end Colloquy
