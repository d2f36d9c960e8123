import Colloquy.Agent
import Colloquy.Turn.Settings

/-!
# Configurations

What a user writes down: the bounds of turns, where sessions are kept, and the agents. A definition
of an agent leaves out what can be derived: the names of its prompts and tools among all others.
-/

namespace Colloquy

/-- Where sessions are kept. -/
inductive StorageKind where
  /-- In a database. -/
  | sqlite
  /-- In memory. -/
  | memory
  deriving DecidableEq, Repr

namespace StorageKind

/-- The name of a kind of storage. -/
def name : StorageKind → String
  | .sqlite => "sqlite"
  | .memory => "memory"

/-- All kinds of storage. -/
def all : List StorageKind :=
  [.sqlite, .memory]

/-- Reads the name of a kind of storage in any letter case. -/
def ofText? (s : String) : Except UnknownName StorageKind :=
  match Text.lowerAscii s with
  | "sqlite" => .ok .sqlite
  | "memory" | "in_memory" => .ok .memory
  | other => .error ⟨"storage backend", other⟩

/-- The exchange form of a kind of storage is its name. -/
def toJson (kind : StorageKind) : Json :=
  .text kind.name

/-- Reads the exchange form of a kind of storage. -/
def decode : Decoder StorageKind :=
  Decoder.choice (all.map fun kind => (kind.name, kind))

end StorageKind

/-- Where and how sessions are kept. -/
structure StorageDefinition where
  /-- The kind of storage. -/
  kind : StorageKind
  /-- The file of the database, if it has a place of its own. -/
  path : Option String
  deriving DecidableEq, Repr

namespace StorageDefinition

/-- The storage where none is defined. -/
def standard : StorageDefinition :=
  ⟨.sqlite, none⟩

/-- The exchange form of a storage definition. -/
def toJson (storage : StorageDefinition) : Json :=
  .record <| [("backend", storage.kind.toJson)] ++ Json.member? "path" .text storage.path

/-- Reads the exchange form of a storage definition. -/
def decode : Decoder StorageDefinition := fun rules d => do
  let fields ← d.fields? ["backend", "path"] rules
  let kind ← fields.withDefault "backend" StorageKind.decode standard.kind
  let path ← fields.optional "path" Decoder.text
  some ⟨kind, path⟩

end StorageDefinition

/-- A prompt of a defined agent. -/
structure PromptDefinition where
  /-- The instructions. -/
  content : String
  /-- Whether it may be used. -/
  active : Bool
  deriving DecidableEq, Repr

namespace PromptDefinition

/-- The exchange form of a prompt definition. -/
def toJson (prompt : PromptDefinition) : Json :=
  .record [("content", .text prompt.content), ("active", .bool prompt.active)]

/-- Reads the exchange form of a prompt definition. -/
def decode : Decoder PromptDefinition := fun rules d => do
  let fields ← d.fields? ["content", "active"] rules
  let content ← fields.required "content" Decoder.text
  let active ← fields.withDefault "active" Decoder.bool true
  some ⟨content, active⟩

end PromptDefinition

/-- A tool of a defined agent. -/
structure ToolDefinition where
  /-- The name that the model calls it by. -/
  name : String
  /-- What it is for. -/
  description : String
  /-- The kind of backend that runs it. -/
  kind : ToolKind
  /-- Whether the model is shown it. -/
  active : Bool
  /-- The schema of its parameters. -/
  parameters : Option Json

namespace ToolDefinition

/-- The exchange form of a tool definition. -/
def toJson (tool : ToolDefinition) : Json :=
  .record <| [("name", .text tool.name), ("description", .text tool.description),
      ("kind", tool.kind.toJson), ("active", .bool tool.active)] ++
    Json.member? "parameters" id tool.parameters

/-- Reads the exchange form of a tool definition. -/
def decode : Decoder ToolDefinition := fun rules d => do
  let fields ← d.fields? ["name", "description", "kind", "active", "parameters"] rules
  let name ← fields.required "name" Decoder.text
  let description ← fields.withDefault "description" Decoder.text ""
  let kind ← fields.withDefault "kind" ToolKind.decode .native
  let active ← fields.withDefault "active" Decoder.bool true
  let parameters ← fields.optional "parameters" Json.decode
  some ⟨name, description, kind, active, parameters⟩

end ToolDefinition

/-- The model where none is named. -/
def defaultModel : ModelBinding :=
  ⟨"gpt-4o-mini", defaultTemperature, none⟩

/-- Reads the binding of a defined agent, in which even the model may be left out. -/
def ModelBinding.decodeDefinition : Decoder ModelBinding := fun rules d => do
  let fields ← d.fields? ["model", "temperature", "max_tokens"] rules
  let model ← fields.withDefault "model" Decoder.text defaultModel.model
  let temperature ← fields.withDefault "temperature" Decoder.single defaultModel.temperature
  let maxTokens ← fields.optional "max_tokens" Decoder.word32
  some ⟨model, temperature, maxTokens⟩

/-- The definition of an agent. -/
structure AgentDefinition where
  /-- The name that requests give. -/
  id : String
  /-- The name that people see; if it is empty they see the other one. -/
  name : String
  /-- The model. -/
  model : ModelBinding
  /-- The system prompts. -/
  prompts : List PromptDefinition
  /-- The tools. -/
  tools : List ToolDefinition

namespace AgentDefinition

/-- The exchange form of an agent definition. -/
def toJson (agent : AgentDefinition) : Json :=
  .record [("id", .text agent.id), ("name", .text agent.name), ("llm", agent.model.toJson),
    ("prompts", .list (agent.prompts.map (·.toJson))),
    ("tools", .list (agent.tools.map (·.toJson)))]

/-- Reads the exchange form of an agent definition. -/
def decode : Decoder AgentDefinition := fun rules d => do
  let fields ← d.fields? ["id", "name", "llm", "prompts", "tools"] rules
  let id ← fields.required "id" Decoder.text
  let name ← fields.withDefault "name" Decoder.text ""
  let model ← fields.withDefault "llm" ModelBinding.decodeDefinition defaultModel
  let prompts ← fields.withDefault "prompts" (Decoder.list PromptDefinition.decode) []
  let tools ← fields.withDefault "tools" (Decoder.list ToolDefinition.decode) []
  some ⟨id, name, model, prompts, tools⟩

/-- The prompt that is defined at a place in the list of prompts. -/
def promptAt (agent : AgentDefinition) (prompt : PromptDefinition) (place : Nat) : Prompt :=
  ⟨agent.id ++ ":prompt:" ++ toString place, prompt.content, prompt.active⟩

/-- The tool that is defined. -/
def toolFor (agent : AgentDefinition) (tool : ToolDefinition) : Tool :=
  ⟨agent.id ++ ":tool:" ++ tool.name, tool.name, tool.description, tool.kind, tool.active,
    (tool.parameters.map Json.print).getD emptySchemaText⟩

/-- The agent that is defined. -/
def toAgent (agent : AgentDefinition) : Agent :=
  ⟨agent.id, if agent.name.isEmpty then agent.id else agent.name,
    agent.prompts.zipIdx.map fun (prompt, place) => agent.promptAt prompt place,
    agent.tools.map agent.toolFor, agent.model⟩

end AgentDefinition

/-- A configuration. -/
structure Configuration where
  /-- The bounds of turns. -/
  settings : TurnSettings
  /-- Where sessions are kept. -/
  storage : StorageDefinition
  /-- The agents. -/
  agents : List AgentDefinition

namespace Configuration

/-- The configuration where none is written down. -/
def standard : Configuration :=
  ⟨.standard, .standard, []⟩

/-- The exchange form of a configuration. -/
def toJson (config : Configuration) : Json :=
  .record [("orchestrator", config.settings.toJson), ("storage", config.storage.toJson),
    ("agents", .list (config.agents.map (·.toJson)))]

/-- Reads the exchange form of a configuration. -/
def decode : Decoder Configuration := fun rules d => do
  let fields ← d.fields? ["orchestrator", "storage", "agents"] rules
  let settings ← fields.withDefault "orchestrator" TurnSettings.decode .standard
  let storage ← fields.withDefault "storage" StorageDefinition.decode .standard
  let agents ← fields.withDefault "agents" (Decoder.list AgentDefinition.decode) []
  some ⟨settings, storage, agents⟩

/-- The agents that are defined. -/
def toAgents (config : Configuration) : List Agent :=
  config.agents.map (·.toAgent)

end Configuration

end Colloquy
