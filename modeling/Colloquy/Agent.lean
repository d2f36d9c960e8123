import Colloquy.Tool

/-!
# Agents

An agent binds a model, prompts and tools together. A turn reads it and never changes it: the first
active prompt instructs the model, and the active tools are what the model may call.
-/

namespace Colloquy

/-- A system prompt of an agent. -/
structure Prompt where
  /-- The name of the prompt. -/
  id : String
  /-- The instructions. -/
  content : String
  /-- Whether it may be used. -/
  active : Bool
  deriving DecidableEq, Repr

/-- The exchange form of a prompt. -/
def Prompt.toJson (prompt : Prompt) : Json :=
  .record [("id", .text prompt.id), ("content", .text prompt.content),
    ("active", .bool prompt.active)]

/-- Reads the exchange form of a prompt. -/
def Prompt.decode : Decoder Prompt := fun rules d => do
  let fields ← d.fields? ["id", "content", "active"] rules
  let id ← fields.required "id" Decoder.text
  let content ← fields.required "content" Decoder.text
  let active ← fields.withDefault "active" Decoder.bool false
  some ⟨id, content, active⟩

/-- The temperature of a model where none is given. -/
def defaultTemperature : Float32 :=
  0.7

/-- Which model an agent talks to, and how. -/
structure ModelBinding where
  /-- The model. -/
  model : String
  /-- How freely it chooses its words. -/
  temperature : Float32
  /-- How long an answer may get. -/
  maxTokens : Option UInt32
  deriving DecidableEq

/-- The exchange form of a binding. -/
def ModelBinding.toJson (binding : ModelBinding) : Json :=
  .record <| [("model", .text binding.model), ("temperature", .single binding.temperature)] ++
    Json.member? "max_tokens" .word32 binding.maxTokens

/-- Reads the exchange form of a binding. -/
def ModelBinding.decode : Decoder ModelBinding := fun rules d => do
  let fields ← d.fields? ["model", "temperature", "max_tokens"] rules
  let model ← fields.required "model" Decoder.text
  let temperature ← fields.withDefault "temperature" Decoder.single defaultTemperature
  let maxTokens ← fields.optional "max_tokens" Decoder.word32
  some ⟨model, temperature, maxTokens⟩

/-- An agent. -/
structure Agent where
  /-- The name that requests give. -/
  id : String
  /-- The name that people see. -/
  name : String
  /-- The system prompts. -/
  prompts : List Prompt
  /-- The tools. -/
  tools : List Tool
  /-- The model. -/
  model : ModelBinding
  deriving DecidableEq

namespace Agent

/-- The prompt that a turn uses. -/
def activePrompt? (agent : Agent) : Option Prompt :=
  agent.prompts.find? (·.active)

/-- The tools that the model is shown, in the order of their binding. -/
def activeTools (agent : Agent) : List Tool :=
  agent.tools.filter (·.active)

/-- What the model is shown of the tools. -/
def toolSchemas (agent : Agent) : List ToolSchema :=
  agent.activeTools.map Tool.schema

/-- The active tool that goes by a name. -/
def findTool? (agent : Agent) (name : String) : Option Tool :=
  agent.activeTools.find? (·.goesBy name)

/-- A tool that is found is an active tool of the agent and goes by the name. -/
theorem mem_of_findTool?_eq_some {agent : Agent} {name : String} {tool : Tool}
    (h : agent.findTool? name = some tool) :
    tool ∈ agent.tools ∧ tool.active = true ∧ tool.goesBy name = true := by
  have hmem := List.mem_of_find?_eq_some h
  have hname := List.find?_some h
  simp only [activeTools, List.mem_filter] at hmem
  exact ⟨hmem.1, hmem.2, hname⟩

/-- The exchange form of an agent. -/
def toJson (agent : Agent) : Json :=
  .record [("id", .text agent.id), ("name", .text agent.name),
    ("prompts", .list (agent.prompts.map Prompt.toJson)),
    ("tools", .list (agent.tools.map Tool.toJson)), ("llm", agent.model.toJson)]

/-- Reads the exchange form of an agent. -/
def decode : Decoder Agent := fun rules d => do
  let fields ← d.fields? ["id", "name", "prompts", "tools", "llm"] rules
  let id ← fields.required "id" Decoder.text
  let name ← fields.required "name" Decoder.text
  let prompts ← fields.withDefault "prompts" (Decoder.list Prompt.decode) []
  let tools ← fields.withDefault "tools" (Decoder.list Tool.decode) []
  let model ← fields.required "llm" ModelBinding.decode
  some ⟨id, name, prompts, tools, model⟩

end Agent

end Colloquy
