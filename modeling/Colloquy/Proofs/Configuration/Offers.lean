import Colloquy.Proofs.Configuration.Valid
import Colloquy.Proofs.Text.LetterCase
import Colloquy.Tool.Preparation
import Mathlib.Data.List.Nodup
import Mathlib.Data.List.Perm.Basic

/-!
# What is offered and what can be called

The model is shown the active tools of its agent, and calls them by name in any case of ASCII letters.
In a valid configuration no two tools of an agent have one small form by the rules of Unicode, which
are coarser than the case of ASCII letters. So a name that a call gives belongs to one tool at most,
and what can be called is just what the model is shown.
-/

namespace Colloquy

namespace Agent

/-- The tools of an agent have names with different small forms. -/
def Unambiguous (agent : Agent) : Prop :=
  (agent.tools.map fun tool => Text.lower tool.name).Nodup

variable {agent : Agent} {tool : Tool} {name : String}

/-- The tools that go by the name of one are that one. -/
theorem Unambiguous.filter_goesBy (h : agent.Unambiguous) (hmem : tool ∈ agent.tools)
    (hname : tool.goesBy name = true) : agent.tools.filter (·.goesBy name) = [tool] := by
  have honly : ∀ other ∈ agent.tools, other.goesBy name = true → other = tool := by
    intro other hother hgoes
    have hsame : Text.lower other.name = Text.lower tool.name :=
      (Text.lower_eq_of_alike hgoes).trans (Text.lower_eq_of_alike hname).symm
    exact List.inj_on_of_nodup_map h hother hmem hsame
  have hnodup : (agent.tools.filter (·.goesBy name)).Nodup := (List.Nodup.of_map _ h).filter _
  refine List.perm_singleton.mp ((List.perm_ext_iff_of_nodup hnodup (List.nodup_singleton _)).mpr ?_)
  intro other
  rw [List.mem_filter, List.mem_singleton]
  constructor
  · exact fun ⟨hother, hgoes⟩ => honly other hother hgoes
  · rintro rfl
    exact ⟨hmem, hname⟩

/-- An active tool is found under every name that it goes by. -/
theorem Unambiguous.findTool?_eq_some (h : agent.Unambiguous) (hmem : tool ∈ agent.tools)
    (hactive : tool.active = true) (hname : tool.goesBy name = true) :
    agent.findTool? name = some tool := by
  cases hfound : agent.findTool? name with
  | none =>
    have hnone := List.find?_eq_none.mp hfound tool (List.mem_filter.mpr ⟨hmem, hactive⟩)
    exact absurd hname hnone
  | some found =>
    obtain ⟨hother, -, hgoes⟩ := mem_of_findTool?_eq_some hfound
    have honly : found ∈ agent.tools.filter (·.goesBy name) := List.mem_filter.mpr ⟨hother, hgoes⟩
    rw [h.filter_goesBy hmem hname, List.mem_singleton] at honly
    rw [honly]

/-- The tools that can be found are the active ones. -/
theorem Unambiguous.mem_activeTools_iff (h : agent.Unambiguous) :
    tool ∈ agent.activeTools ↔ ∃ name, agent.findTool? name = some tool := by
  constructor
  · intro hmem
    obtain ⟨hmem, hactive⟩ := List.mem_filter.mp hmem
    exact ⟨tool.name, h.findTool?_eq_some hmem hactive (Text.alike_refl _)⟩
  · rintro ⟨name, hfound⟩
    exact List.mem_of_find?_eq_some hfound

/-- No active tool goes by a name exactly if no schema that the model is shown has it. -/
theorem findTool?_eq_none_iff :
    agent.findTool? name = none ↔
      ∀ schema ∈ agent.toolSchemas, Text.alike schema.name name = false := by
  rw [findTool?, List.find?_eq_none, toolSchemas, List.forall_mem_map]
  exact forall₂_congr fun tool _ => iff_of_eq (Bool.not_eq_true (tool.goesBy name))

end Agent

/-- A call is refused for its name exactly if no active tool goes by it. -/
theorem prepare_unknownTool_iff {serves : ToolKind → Bool} {agent : Agent} {call : ToolCall} :
    (∃ name, prepare serves agent call = .error (.unknownTool name)) ↔
      agent.findTool? call.name = none := by
  rw [prepare]
  cases agent.findTool? call.name with
  | none => simp
  | some tool => cases hserves : serves tool.kind <;> simp [hserves]

/-- An agent that is defined by the rules is unambiguous. -/
theorem AgentDefinition.Valid.unambiguous {definition : AgentDefinition} (h : definition.Valid) :
    definition.toAgent.Unambiguous := by
  have htools := h.tools
  rw [Agent.Unambiguous, toAgent, List.map_map]
  exact htools

/-- In a valid configuration, an active tool of an agent is found under every name that differs from
its own at most in the case of ASCII letters, and no other tool goes by such a name. So the schemas
that the model is shown are those of the tools that can be found, one of each in the order of the
configuration, and a call is refused for its name exactly if no schema has it. -/
theorem Configuration.offers_callable {config : Configuration} (hvalid : config.violation? = none)
    {definition : AgentDefinition} (hmem : definition ∈ config.agents) :
    let agent := definition.toAgent
    let offered := (definition.tools.filter (·.active)).map definition.toolFor
    (∀ tool ∈ agent.tools, tool.active = true → ∀ name, Text.alike tool.name name = true →
      agent.findTool? name = some tool ∧ agent.tools.filter (·.goesBy name) = [tool]) ∧
      (offered.Nodup ∧ (∀ tool, tool ∈ offered ↔ ∃ name, agent.findTool? name = some tool) ∧
        agent.toolSchemas = offered.map Tool.schema) ∧
      ∀ serves call, (∃ name, prepare serves agent call = .error (.unknownTool name)) ↔
        ∀ schema ∈ agent.toolSchemas, Text.alike schema.name call.name = false := by
  intro agent offered
  have hunambiguous : agent.Unambiguous :=
    ((violation?_eq_none_iff.mp hvalid).agents definition hmem).unambiguous
  have hoffered : agent.activeTools = offered := by
    have htools : agent.tools = definition.tools.map definition.toolFor := rfl
    rw [Agent.activeTools, htools, List.filter_map]
    rfl
  refine ⟨?_, ⟨?_, ?_, ?_⟩, ?_⟩
  · intro tool htool hactive name hname
    exact ⟨hunambiguous.findTool?_eq_some htool hactive hname,
      hunambiguous.filter_goesBy htool hname⟩
  · rw [← hoffered]
    exact (List.Nodup.of_map _ hunambiguous).filter _
  · intro tool
    rw [← hoffered]
    exact hunambiguous.mem_activeTools_iff
  · rw [Agent.toolSchemas, hoffered]
  · intro serves call
    exact prepare_unknownTool_iff.trans Agent.findTool?_eq_none_iff

/-- An agent whose model may look up the weather under any spelling, while a tool of almost that name
is put away. -/
theorem Configuration.offers_callable_weather :
    let weather : ToolDefinition := ⟨"get_weather", "", .native, true, none⟩
    let idle : ToolDefinition := ⟨"get_weathers", "", .native, false, none⟩
    let definition : AgentDefinition := ⟨"bot", "", ⟨"m", 0.5, none⟩, [], [idle, weather]⟩
    let config : Configuration := ⟨.standard, .standard, [definition]⟩
    let agent := definition.toAgent
    config.violation? = none ∧ agent.findTool? "GET_Weather" = some (definition.toolFor weather) ∧
      agent.toolSchemas = [(definition.toolFor weather).schema] ∧
      ∃ name, prepare (fun _ => true) agent ⟨"c", "get_weathers", ""⟩ =
        .error (.unknownTool name) := by
  intro weather idle definition config agent
  have hvalid : config.violation? = none := by decide +kernel
  obtain ⟨hfound, ⟨-, -, hschemas⟩, hrefused⟩ :=
    Configuration.offers_callable hvalid (List.mem_singleton_self definition)
  have hmem : definition.toolFor weather ∈ agent.tools :=
    List.mem_cons_of_mem _ List.mem_cons_self
  have hname : Text.alike (definition.toolFor weather).name "GET_Weather" = true := by
    decide +kernel
  refine ⟨hvalid, (hfound _ hmem rfl _ hname).1, hschemas, (hrefused _ _).mpr ?_⟩
  rw [hschemas]
  intro schema hschema
  obtain rfl := List.mem_singleton.mp hschema
  decide +kernel

end Colloquy
