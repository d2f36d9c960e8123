import Colloquy.Proofs.Configuration.Directories
import Colloquy.Proofs.Turn.Requests
import Colloquy.Proofs.Turn.Surroundings
import Mathlib.Data.List.TakeWhile

/-!
# Addressing the agents of a configuration

A request gives the id of an agent, and the agent is looked up under the id without the blanks at its
ends. The directory of a valid configuration has each defined agent under its id as it is written,
blanks and all. So a request for a defined agent comes to that agent exactly if there are no blanks at
the ends of its id.
-/

namespace Colloquy

namespace Text

private theorem all_dropWhile (cs : List Char) :
    (cs.dropWhile isBlank).all isBlank = cs.all isBlank := by
  induction cs with
  | nil => rfl
  | cons c cs ih =>
    rw [List.dropWhile_cons]
    split
    · next hblank => rw [ih, List.all_cons, hblank, Bool.true_and]
    · rfl

/-- Nothing is left of a text without the blanks at its ends exactly if it is blank. -/
theorem trim_eq_empty_iff (s : String) : trim s = "" ↔ isBlankText s = true := by
  rw [trim, trimEnd, trimStart, isBlankText, String.toList_ofList, ← all_dropWhile,
    ← List.all_reverse, List.all_eq_true, ← List.dropWhile_eq_nil_iff]
  rw [String.ofList_eq_empty_iff, List.reverse_eq_nil_iff]

end Text

namespace TurnRequest

/-- Nothing is missing in a request with the id of an agent and a message that are not blank. -/
theorem addressee_eq_ok {request : TurnRequest} {id : String} (hid : request.agentId = some id)
    (hblank : Text.isBlankText id = false) (hcontent : Text.isBlankText request.content = false) :
    request.addressee = .ok (Text.trim id) := by
  have hsome : Text.trim id ≠ "" := fun h => by simp [(Text.trim_eq_empty_iff id).mp h] at hblank
  unfold addressee
  rw [hid, Option.map_some]
  split
  · next hnone => cases hnone
  · next hempty => exact absurd (Option.some.inj hempty) hsome
  · next heq => rw [hcontent, Option.some.inj heq]; rfl

/-- What a request comes to behind the look-up of its agent: the turn of the agent, or a notice. -/
def behind (request : TurnRequest) (scope : TurnScope) (found : Option Agent) :
    HeedfulProgram Unit :=
  match request.turnOf found with
  | .ok turn => turn.heedful scope
  | .error rejection => (Heedful.say (notice rejection.message)).reported

/-- The program of a request, told up to the look-up of its agent. -/
theorem heedful_eq {request : TurnRequest} {id : String} (h : request.addressee = .ok id)
    (scope : TurnScope) :
    request.heedful scope = .ask .look fun gone => if gone then .done () else
      .ask .glance fun gone => if gone then .done () else
        .ask (.perform (.findAgent id)) fun
          | .ok found => request.behind scope found
          | .error fault => Heedful.reported (throw (.fault (.store fault))) := by
  unfold heedful perform resolve
  rw [h]
  refine congrArg (Program.ask Inquiry.look) (funext fun gone => ?_)
  cases gone with
  | true => rfl
  | false =>
    refine congrArg (Program.ask Inquiry.glance) (funext fun gone => ?_)
    cases gone with
    | true => rfl
    | false =>
      refine congrArg (Program.ask (Inquiry.perform (.findAgent id))) (funext fun answer => ?_)
      cases answer with
      | error fault => rfl
      | ok found =>
        change Heedful.reported (match request.turnOf found with
          | .ok turn => turn.perform scope
          | .error rejection => Heedful.say (notice rejection.message)) = request.behind scope found
        unfold behind
        cases request.turnOf found <;> rfl

variable {σ : Type}

/-- If its listener is there, a request looks up its agent and comes to what stands behind. -/
theorem run_of_addressee {request : TurnRequest} {id : String} (h : request.addressee = .ok id)
    (scope : TurnScope) (listener : Listener) {host : Program.Host Effect Effect.Answer σ} {s s' : σ}
    {found : Option Agent} (hfound : host (.findAgent id) s = some (.ok found, s')) :
    ((Assignment.requested request).run scope listener host s).exchanges =
      if listener.isGone 0 then []
      else ⟨.findAgent id, .ok found⟩ ::
        (listener.run host (request.behind scope found) 1 s').exchanges := by
  have hrun : (Assignment.requested request).run scope listener host s =
      listener.run host (request.heedful scope) 0 s := rfl
  rw [hrun, heedful_eq h, Listener.run]
  cases hgone : listener.isGone 0 with
  | true => rfl
  | false =>
    rw [if_neg Bool.false_ne_true, Listener.run, hgone, Bool.false_and, if_neg Bool.false_ne_true,
      Listener.run, hfound]
    rfl

end TurnRequest

namespace Configuration

/-- In the directory of a valid configuration stands under an id the agent that is defined with it. -/
theorem find?_toAgents_eq_some_iff {config : Configuration} (hvalid : config.violation? = none)
    {id : String} {agent : Agent} :
    (AgentDirectory.ofList config.toAgents).find? id = some agent ↔
      ∃ other ∈ config.agents, other.id = id ∧ other.toAgent = agent := by
  rw [AgentDirectory.find?_ofList_eq_some_iff (nodup_ids_toAgents hvalid), toAgents, List.mem_map]
  constructor
  · rintro ⟨⟨other, hmem, rfl⟩, hid⟩
    exact ⟨other, hmem, hid, rfl⟩
  · rintro ⟨other, hmem, hid, rfl⟩
    exact ⟨⟨other, hmem, rfl⟩, hid⟩

/-- A request with the id of an agent of a valid configuration comes to the agent whose id is that one
without the blanks at its ends. It is the very agent exactly if there are no such blanks, and then the
model is asked with its binding and its first active prompt. -/
theorem run_addressed {σ : Type} {config : Configuration} (hvalid : config.violation? = none)
    {definition : AgentDefinition} (hmem : definition ∈ config.agents) {prompt : Prompt}
    (hprompt : definition.toAgent.activePrompt? = some prompt) {request : TurnRequest}
    (hid : request.agentId = some definition.id)
    (hcontent : Text.isBlankText request.content = false) (scope : TurnScope) (listener : Listener)
    {host : Program.Host Effect Effect.Answer σ}
    (hdirectory : ∀ id s, ∃ s', host (.findAgent id) s =
      some (.ok ((AgentDirectory.ofList config.toAgents).find? id), s'))
    (s : σ) :
    let turn : Turn := ⟨definition.toAgent, prompt, request.content, request.session, []⟩
    let key := Text.trim definition.id
    let run := (Assignment.requested request).run scope listener host s
    ∃ found : Option Agent,
      (∀ agent, found = some agent ↔
        ∃ other ∈ config.agents, other.id = key ∧ other.toAgent = agent) ∧
      (∃ s', run.exchanges = if listener.isGone 0 then [] else
        ⟨.findAgent key, .ok found⟩ ::
          (listener.run host (request.behind scope found) 1 s').exchanges) ∧
      (request.turnOf found = .ok turn ↔ key = definition.id) ∧
      (key = definition.id → ∀ asked ∈ requested run.exchanges,
        asked.model = definition.model.model ∧
          asked.temperature = definition.model.temperature ∧
          asked.maxTokens = definition.model.maxTokens ∧
          ∃ earlier content, asked.prompt = PromptText.compose prompt.content
            scope.settings.effective.previewChars earlier content) := by
  intro turn key run
  have hblank := ((violation?_eq_none_iff.mp hvalid).agents definition hmem).id
  have haddressee : request.addressee = .ok key :=
    TurnRequest.addressee_eq_ok hid hblank hcontent
  obtain ⟨s', hfound⟩ := hdirectory key s
  have hexchanges := TurnRequest.run_of_addressee haddressee scope listener hfound
  let found := (AgentDirectory.ofList config.toAgents).find? key
  have hwhich : ∀ agent, found = some agent ↔
      ∃ other ∈ config.agents, other.id = key ∧ other.toAgent = agent :=
    fun agent => find?_toAgents_eq_some_iff hvalid
  have hself : key = definition.id → request.turnOf found = .ok turn := by
    intro hkey
    rw [(hwhich definition.toAgent).mpr ⟨definition, hmem, hkey.symm, rfl⟩, TurnRequest.turnOf,
      hprompt]
  refine ⟨found, hwhich, ⟨s', hexchanges⟩, ⟨?_, hself⟩, ?_⟩
  · intro hturn
    obtain ⟨agent, _, hagent, -, hsame⟩ := TurnRequest.turnOf_eq_ok_iff.mp hturn
    obtain ⟨other, -, hother, hdefined⟩ := (hwhich agent).mp hagent
    exact hother.symm.trans (congrArg Agent.id (hdefined.trans (congrArg Turn.agent hsame).symm))
  · intro hkey asked hasked
    have hbehind : request.behind scope found = turn.heedful scope := by
      rw [TurnRequest.behind, hself hkey]
    rw [hexchanges, hbehind] at hasked
    split at hasked
    · cases hasked
    · obtain ⟨history, content, rfl⟩ := Turn.asksOnly_run scope turn listener host 1 s' asked hasked
      exact ⟨rfl, rfl, rfl, _, content, rfl⟩

section Greeter

/-- An agent that is defined with an id and little else. -/
private def greeter (id : String) : AgentDefinition :=
  ⟨id, "", ⟨"m", 0.5, none⟩, [⟨"Be brief.", true⟩], []⟩

/-- A configuration with one agent. -/
private def greeting (id : String) : Configuration :=
  ⟨.standard, .standard, [greeter id]⟩

/-- The agents of a configuration, and a model that says hello. -/
private def company (config : Configuration) : Surroundings :=
  ⟨fun id => .ok ((AgentDirectory.ofList config.toAgents).find? id), fun _ _ => none,
    fun _ => .ok ⟨[.ok ⟨some "Hello.", [], true⟩], false⟩, fun moment => ⟨⟨moment, 0⟩, "name"⟩,
    fun _ => 0⟩

/-- Nothing has happened yet. -/
private def dawn : Scene (MemoryStore × MemoryLog) :=
  ⟨(.empty, .empty), [], 0⟩

/-- An agent without blanks at the ends of its id is addressed by it. -/
theorem run_addressed_greeter :
    let run := (Assignment.requested ⟨some "bot", "Hi", none⟩).run ⟨.standard, fun _ => true, 3⟩
      .steady (company (greeting "bot")).host dawn
    (greeting "bot").violation? = none ∧
      (∃ rest, run.exchanges =
        ⟨.findAgent "bot", .ok (some (greeter "bot").toAgent)⟩ :: rest) ∧
      (requested run.exchanges).length = 1 ∧ ∀ asked ∈ requested run.exchanges,
        asked.model = "m" ∧ ∃ earlier content, asked.prompt =
          PromptText.compose "Be brief." 200 earlier content := by
  intro run
  let request : TurnRequest := ⟨some "bot", "Hi", none⟩
  let host : Program.Host Effect Effect.Answer (Scene (MemoryStore × MemoryLog)) :=
    (company (greeting "bot")).host
  have hvalid : (greeting "bot").violation? = none := by decide +kernel
  have hkey : Text.trim (greeter "bot").id = "bot" := by decide +kernel
  have hmem : greeter "bot" ∈ (greeting "bot").agents := List.mem_singleton_self _
  have hprompt : (greeter "bot").toAgent.activePrompt? =
      some ⟨"bot:prompt:0", "Be brief.", true⟩ := by
    decide +kernel
  have hid : request.agentId = some (greeter "bot").id := rfl
  have hcontent : Text.isBlankText request.content = false := by decide +kernel
  have hdirectory : ∀ id s, ∃ s', host (.findAgent id) s =
      some (.ok ((AgentDirectory.ofList (greeting "bot").toAgents).find? id), s') :=
    fun id s => ⟨s.later, rfl⟩
  obtain ⟨found, hfound, ⟨s', hexchanges⟩, -, hasked⟩ := run_addressed hvalid hmem hprompt hid hcontent
    ⟨.standard, fun _ => true, 3⟩ .steady hdirectory dawn
  rw [(hfound (greeter "bot").toAgent).mpr ⟨_, hmem, hkey.symm, rfl⟩, hkey] at hexchanges
  refine ⟨hvalid, ⟨_, hexchanges⟩, by decide +kernel, fun asked hmem => ?_⟩
  obtain ⟨hmodel, -, -, earlier, content, hcompose⟩ := hasked hkey asked hmem
  exact ⟨hmodel, earlier, content, hcompose⟩

/-- A valid configuration may have an agent that no request comes to, not even one with its id. -/
theorem run_addressed_padded :
    let request : TurnRequest := ⟨some " bot ", "Hi", none⟩
    (greeting " bot ").violation? = none ∧ greeter " bot " ∈ (greeting " bot ").agents ∧
      request.agentId = some (greeter " bot ").id ∧
      (greeter " bot ").toAgent.activePrompt? = some ⟨" bot :prompt:0", "Be brief.", true⟩ ∧
      ((Assignment.requested request).run ⟨.standard, fun _ => true, 3⟩ .steady
        (company (greeting " bot ")).host dawn).exchanges =
        [⟨.findAgent "bot", .ok none⟩, TurnExchange.piece "Error: Agent not found"] := by
  intro request
  have hkey : Text.trim " bot " = "bot" := by decide +kernel
  have haddressee : request.addressee = .ok "bot" :=
    hkey ▸ TurnRequest.addressee_eq_ok rfl (by decide +kernel) (by decide +kernel)
  have hnone : (AgentDirectory.ofList (greeting " bot ").toAgents).find? "bot" = none := by
    decide +kernel
  have hfound : (company (greeting " bot ")).host (.findAgent "bot") dawn =
      some (.ok none, dawn.later) := by
    rw [← hnone]
    rfl
  refine ⟨by decide +kernel, List.mem_singleton_self _, rfl, by decide +kernel, ?_⟩
  rw [TurnRequest.run_of_addressee haddressee _ _ hfound]
  rfl

end Greeter

end Configuration

end Colloquy
