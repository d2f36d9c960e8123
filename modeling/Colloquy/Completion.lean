import Colloquy.Agent

/-!
# Completions

A completion is one answer of a model to one request. It arrives as a stream of deltas, each of which
may carry a piece of text and pieces of calls; the pieces of one call share an index.
-/

namespace Colloquy

/-- A request for one completion. -/
structure CompletionRequest where
  /-- The model. -/
  model : String
  /-- How freely it chooses its words. -/
  temperature : Float32
  /-- How long the answer may get. -/
  maxTokens : Option UInt32
  /-- The prompt. -/
  prompt : String
  /-- What the model may call. -/
  tools : List ToolSchema

/-- The exchange form of a request. -/
def CompletionRequest.toJson (request : CompletionRequest) : Json :=
  .record <| [("model", .text request.model), ("temperature", .single request.temperature)] ++
    Json.member? "max_tokens" .word32 request.maxTokens ++ [("prompt", .text request.prompt)] ++
    Json.nonEmpty "tools" ToolSchema.toJson request.tools

/-- Reads the exchange form of a request. -/
def CompletionRequest.decode : Decoder CompletionRequest := fun rules d => do
  let fields ← d.fields? ["model", "temperature", "max_tokens", "prompt", "tools"] rules
  let model ← fields.required "model" Decoder.text
  let temperature ← fields.withDefault "temperature" Decoder.single defaultTemperature
  let maxTokens ← fields.optional "max_tokens" Decoder.word32
  let prompt ← fields.required "prompt" Decoder.text
  let tools ← fields.withDefault "tools" (Decoder.list ToolSchema.decode) []
  some ⟨model, temperature, maxTokens, prompt, tools⟩

/-- A piece of a call. -/
structure Fragment where
  /-- Which call it belongs to. -/
  index : UInt32
  /-- The model's name for the call. -/
  id : Option String
  /-- The tool to call. -/
  name : Option String
  /-- A piece of the arguments. -/
  arguments : Option String
  deriving DecidableEq, Repr

/-- The exchange form of a fragment. -/
def Fragment.toJson (fragment : Fragment) : Json :=
  .record <| [("index", .word32 fragment.index)] ++ Json.member? "id" .text fragment.id ++
    Json.member? "name" .text fragment.name ++ Json.member? "arguments" .text fragment.arguments

/-- Reads the exchange form of a fragment. -/
def Fragment.decode : Decoder Fragment := fun rules d => do
  let fields ← d.fields? ["index", "id", "name", "arguments"] rules
  let index ← fields.required "index" Decoder.word32
  let id ← fields.optional "id" Decoder.text
  let name ← fields.optional "name" Decoder.text
  let arguments ← fields.optional "arguments" Decoder.text
  some ⟨index, id, name, arguments⟩

/-- A piece of a completion. -/
structure Delta where
  /-- A piece of text. -/
  content : Option String
  /-- Pieces of calls. -/
  fragments : List Fragment
  /-- Whether this is the last piece. -/
  done : Bool
  deriving DecidableEq, Repr

namespace Delta

/-- A delta that carries a text. -/
def ofText (s : String) : Delta :=
  ⟨some s, [], false⟩

/-- A delta that only says that it is the last. -/
def last : Delta :=
  ⟨none, [], true⟩

/-- The exchange form of a delta. -/
def toJson (delta : Delta) : Json :=
  .record <| Json.member? "content" .text delta.content ++
    Json.nonEmpty "tool_calls" Fragment.toJson delta.fragments ++ [("done", .bool delta.done)]

/-- Reads the exchange form of a delta. -/
def decode : Decoder Delta := fun rules d => do
  let fields ← d.fields? ["content", "tool_calls", "done"] rules
  let content ← fields.optional "content" Decoder.text
  let fragments ← fields.withDefault "tool_calls" (Decoder.list Fragment.decode) []
  let done ← fields.withDefault "done" Decoder.bool false
  some ⟨content, fragments, done⟩

end Delta

end Colloquy
