import Colloquy.Configuration
import Colloquy.Proofs.Json.Printed
import Mathlib.Data.List.Forall2

/-!
# Schemas of configured tools

The schema of a configured tool is printed when the agent is made and read again for every turn,
where whatever is no JSON object counts as empty. Nothing is lost on the way: of each active tool the
model is shown the very schema that was configured, unless it has more levels than a reader of JSON
admits.
-/

namespace Colloquy

/-- A value that keeps its meaning in print: integers have 64 bits, every double is read from its own
text, and the members of every record are in strict order of their names. -/
structure Json.Faithful (v : Json) : Prop where
  /-- Numbers are read from their own texts. -/
  legible : v.Legible
  /-- Members are in strict order. -/
  ordered : v.Ordered

/-- The schema that is written where none is given is the empty one. -/
theorem read?_emptySchemaText : Json.read? emptySchemaText = some emptySchema := by
  let written : Json := .record [("type", .text "object"), ("properties", .record [])]
  have htext : emptySchemaText = written.print := rfl
  have hlegible : written.Legible := ⟨trivial, trivial, trivial⟩
  rw [htext, Json.read?, Json.readAs?, Json.datum?_print hlegible]
  rfl

/-- A tool without a JSON object for a schema is shown with the empty one. -/
theorem Tool.schema_of_ne_record {tool : Tool}
    (h : ∀ members, Json.read? tool.parametersSchema ≠ some (.record members)) :
    tool.schema = ⟨tool.name, tool.description, emptySchema⟩ := by
  rw [schema]
  split
  · next members heq => exact absurd heq (h members)
  · rfl

/-- A tool is shown with the JSON object that its schema is. -/
theorem Tool.schema_of_read? {tool : Tool} {members : Json.Members}
    (h : Json.read? tool.parametersSchema = some (.record members)) :
    tool.schema = ⟨tool.name, tool.description, .record members⟩ := by
  rw [schema, h]

/-- A schema shows a tool: it has the name, the description and the configured schema of the tool,
whenever this is an object of at most 127 levels. Whatever else is configured counts as empty. -/
structure ToolDefinition.IsShownAs (tool : ToolDefinition) (schema : ToolSchema) : Prop where
  /-- The name is that of the tool. -/
  name : schema.name = tool.name
  /-- The description is that of the tool. -/
  description : schema.description = tool.description
  /-- An object is shown as it was configured. -/
  configured : ∀ members, tool.parameters = some (.record members) →
    (Json.record members).depth ≤ 127 → (Json.record members).Faithful →
    schema.parameters = .record members
  /-- An object with more levels counts as empty. -/
  tooDeep : ∀ members, tool.parameters = some (.record members) →
    127 < (Json.record members).depth → (Json.record members).Legible →
    schema.parameters = emptySchema
  /-- Nothing at all and a value that is no object count as empty. -/
  unfit : (∀ members, tool.parameters ≠ some (.record members)) → schema.parameters = emptySchema

theorem ToolDefinition.IsShownAs.eq {tool : ToolDefinition} {schema : ToolSchema}
    {parameters : Json} (h : tool.IsShownAs schema) (hparameters : schema.parameters = parameters) :
    schema = ⟨tool.name, tool.description, parameters⟩ := by
  rw [← h.name, ← h.description, ← hparameters]

namespace AgentDefinition

/-- The schema of a tool that has one is its text. -/
private theorem parametersSchema_toolFor (definition : AgentDefinition) {tool : ToolDefinition}
    {v : Json} (h : tool.parameters = some v) :
    (definition.toolFor tool).parametersSchema = v.print := by
  rw [toolFor, h]
  rfl

/-- A tool of the agent is shown as it was configured. -/
theorem isShownAs_toolFor (definition : AgentDefinition) (tool : ToolDefinition) :
    tool.IsShownAs (definition.toolFor tool).schema where
  name := rfl
  description := rfl
  configured := by
    intro members hparameters hdepth hfaithful
    have hread := Json.read?_print hfaithful.legible hfaithful.ordered hdepth
    rw [Tool.schema_of_read? (by rwa [parametersSchema_toolFor definition hparameters])]
  tooDeep := by
    intro members hparameters hdepth hlegible
    have hread := Json.read?_print_of_lt hlegible hdepth
    rw [Tool.schema_of_ne_record]
    intro other
    rw [parametersSchema_toolFor definition hparameters, hread]
    exact fun heq => nomatch heq
  unfit := by
    intro hother
    cases hparameters : tool.parameters with
    | none =>
      have htext : (definition.toolFor tool).parametersSchema = emptySchemaText := by
        rw [toolFor, hparameters]
        rfl
      rw [Tool.schema_of_read? (by rw [htext, read?_emptySchemaText]; rfl)]
      rfl
    | some v =>
      have hv : ∀ members, v ≠ .record members := by
        rintro members rfl
        exact hother members hparameters
      rw [Tool.schema_of_ne_record]
      intro members
      rw [parametersSchema_toolFor definition hparameters]
      exact Json.read?_print_ne_record hv members

/-- The model is shown the active tools in the order of the configuration, one schema for each, with
its name, its description and the schema that was configured for it. -/
theorem toolSchemas_toAgent (definition : AgentDefinition) :
    List.Forall₂ ToolDefinition.IsShownAs (definition.tools.filter (·.active))
      definition.toAgent.toolSchemas := by
  have hschemas : definition.toAgent.toolSchemas = (definition.tools.filter (·.active)).map
      fun tool => (definition.toolFor tool).schema := by
    rw [Agent.toolSchemas, Agent.activeTools, toAgent, List.filter_map, List.map_map]
    rfl
  rw [hschemas, List.forall₂_map_right_iff, List.forall₂_same]
  exact fun tool _ => definition.isShownAs_toolFor tool

/-- A nested schema is shown as it was configured, beside a tool without one and a tool with a list
in the place of one, while a tool that is put away is not shown. -/
theorem toolSchemas_toAgent_nested :
    let city : Json := .record [("properties", .record [("city", .record [("maxLength", .integer 80),
      ("type", .text "string")])]), ("type", .text "object")]
    let weather : ToolDefinition := ⟨"weather", "Today", .httpApi, true, some city⟩
    let idle : ToolDefinition := ⟨"idle", "", .native, false, some city⟩
    let clock : ToolDefinition := ⟨"clock", "", .native, true, none⟩
    let listed : ToolDefinition := ⟨"listed", "", .mcp, true, some (.list [city])⟩
    let definition : AgentDefinition :=
      ⟨"bot", "", ⟨"m", 0.5, none⟩, [], [weather, idle, clock, listed]⟩
    city.Faithful ∧
      definition.toAgent.toolSchemas = [⟨"weather", "Today", city⟩, ⟨"clock", "", emptySchema⟩,
        ⟨"listed", "", emptySchema⟩] := by
  intro city weather idle clock listed definition
  have hcity : city.Faithful :=
    ⟨⟨⟨⟨⟨by decide, by decide⟩, trivial, trivial⟩, trivial⟩, trivial, trivial⟩,
      by decide, ⟨by decide, ⟨by decide, trivial, trivial, trivial⟩, trivial⟩, trivial, trivial⟩
  have hshown : List.Forall₂ ToolDefinition.IsShownAs [weather, clock, listed]
      definition.toAgent.toolSchemas := toolSchemas_toAgent definition
  refine ⟨hcity, ?_⟩
  generalize definition.toAgent.toolSchemas = schemas at hshown ⊢
  obtain _ | ⟨hweather, _ | ⟨hclock, _ | ⟨hlisted, ⟨⟩⟩⟩⟩ := hshown
  rw [hweather.eq (hweather.configured _ rfl (by decide) hcity),
    hclock.eq (hclock.unfit (by rintro _ ⟨⟩)), hlisted.eq (hlisted.unfit (by rintro _ ⟨⟩))]

end AgentDefinition

end Colloquy
