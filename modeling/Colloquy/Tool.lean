import Colloquy.Fault
import Colloquy.Json.Printer
import Colloquy.Json.Reader
import Colloquy.Text.Case

/-!
# Tools

A tool is what an agent lets its model call: a name, a description and a schema of the parameters,
which the model is shown, and the kind of backend that runs it. A call names a tool and carries
its arguments as the model wrote them.
-/

namespace Colloquy

/-- The kind of backend that runs a tool. -/
inductive ToolKind where
  /-- A remote endpoint. -/
  | httpApi
  /-- A tool of a context-protocol server. -/
  | mcp
  /-- A function of this program. -/
  | native
  deriving DecidableEq, Repr

namespace ToolKind

/-- The name of a kind. -/
def name : ToolKind → String
  | .httpApi => "http_api"
  | .mcp => "mcp"
  | .native => "native"

/-- All kinds, in the order of their names. -/
def all : List ToolKind :=
  [.httpApi, .mcp, .native]

/-- Reads the name of a kind, or one of its short names, in any letter case. -/
def ofText? (s : String) : Except UnknownName ToolKind :=
  match Text.lowerAscii s with
  | "http_api" | "http" => .ok .httpApi
  | "mcp" => .ok .mcp
  | "native" | "function" => .ok .native
  | other => .error ⟨"tool kind", other⟩

/-- The exchange form of a kind is its name. -/
def toJson (kind : ToolKind) : Json :=
  .text kind.name

/-- Reads the exchange form of a kind. -/
def decode : Decoder ToolKind :=
  Decoder.choice (all.map fun kind => (kind.name, kind))

end ToolKind

/-- A tool as the model is shown it. -/
structure ToolSchema where
  /-- The name to call it by. -/
  name : String
  /-- What it is for. -/
  description : String
  /-- The schema of its parameters. -/
  parameters : Json

/-- The exchange form of a schema. -/
def ToolSchema.toJson (schema : ToolSchema) : Json :=
  .record [("name", .text schema.name), ("description", .text schema.description),
    ("parameters", schema.parameters)]

/-- Reads the exchange form of a schema. -/
def ToolSchema.decode : Decoder ToolSchema := fun rules d => do
  let fields ← d.fields? ["name", "description", "parameters"] rules
  let name ← fields.required "name" Decoder.text
  let description ← fields.required "description" Decoder.text
  let parameters ← fields.required "parameters" Json.decode
  some ⟨name, description, parameters⟩

/-- A call of a tool by the model. -/
structure ToolCall where
  /-- The model's name for the call. -/
  id : String
  /-- The tool to call. -/
  name : String
  /-- The arguments as the model wrote them. -/
  arguments : String
  deriving DecidableEq, Repr

/-- The exchange form of a call. -/
def ToolCall.toJson (call : ToolCall) : Json :=
  .record [("id", .text call.id), ("name", .text call.name), ("arguments", .text call.arguments)]

/-- Reads the exchange form of a call. -/
def ToolCall.decode : Decoder ToolCall := fun rules d => do
  let fields ← d.fields? ["id", "name", "arguments"] rules
  let id ← fields.required "id" Decoder.text
  let name ← fields.required "name" Decoder.text
  let arguments ← fields.required "arguments" Decoder.text
  some ⟨id, name, arguments⟩

/-- The schema of a tool without parameters, as written where none is given. -/
def emptySchemaText : String :=
  "\x7b\"type\":\"object\",\"properties\":\x7b\x7d\x7d"

/-- The schema of a tool without parameters. -/
def emptySchema : Json :=
  .record [("properties", .record []), ("type", .text "object")]

/-- A tool of an agent. -/
structure Tool where
  /-- The name of the tool among all tools. -/
  id : String
  /-- The name that the model calls it by. -/
  name : String
  /-- What it is for. -/
  description : String
  /-- The kind of backend that runs it. -/
  kind : ToolKind
  /-- Whether the model is shown it. -/
  active : Bool
  /-- The schema of its parameters as a JSON text. -/
  parametersSchema : String
  deriving DecidableEq, Repr

namespace Tool

/-- The tool as the model is shown it. A schema that is no JSON object counts as empty, so that one
bad definition does not spoil a turn. -/
def schema (tool : Tool) : ToolSchema :=
  let parameters := match Json.read? tool.parametersSchema with
    | some (.record members) => .record members
    | _ => emptySchema
  ⟨tool.name, tool.description, parameters⟩

/-- A tool goes by a name that is its own up to the case of ASCII letters. -/
def goesBy (tool : Tool) (name : String) : Bool :=
  Text.alike tool.name name

/-- The exchange form of a tool. -/
def toJson (tool : Tool) : Json :=
  .record [("id", .text tool.id), ("name", .text tool.name), ("description", .text tool.description),
    ("kind", tool.kind.toJson), ("active", .bool tool.active),
    ("parameters_schema", .text tool.parametersSchema)]

/-- Reads the exchange form of a tool. -/
def decode : Decoder Tool := fun rules d => do
  let fields ← d.fields? ["id", "name", "description", "kind", "active", "parameters_schema"] rules
  let id ← fields.required "id" Decoder.text
  let name ← fields.required "name" Decoder.text
  let description ← fields.withDefault "description" Decoder.text ""
  let kind ← fields.required "kind" ToolKind.decode
  let active ← fields.withDefault "active" Decoder.bool true
  let parametersSchema ← fields.withDefault "parameters_schema" Decoder.text emptySchemaText
  some ⟨id, name, description, kind, active, parametersSchema⟩

end Tool

end Colloquy
