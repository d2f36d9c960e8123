import Colloquy.Instant
import Colloquy.Tool

/-!
# Execution records

Every call that a model makes leaves one record, whether the tool ran, failed or was never found. A
record gives one line of the message that goes back to the model.
-/

namespace Colloquy

/-- The name of a session; any text may be one. -/
abbrev SessionId := String

/-- Where a record comes from. -/
structure Origin where
  /-- The model's name for the call. -/
  callId : String
  /-- The tool, unless the call was never resolved to one. -/
  toolId : Option String
  /-- The name of the tool. -/
  toolName : String
  /-- The session of the turn. -/
  session : SessionId
  /-- The agent of the turn. -/
  agentId : String
  deriving DecidableEq, Repr

/-- The outcome of one call. -/
structure ExecutionRecord where
  /-- The model's name for the call. -/
  callId : String
  /-- The tool, unless the call was never resolved to one. -/
  toolId : Option String
  /-- The name of the tool. -/
  toolName : String
  /-- The parameters that the tool was given. -/
  parameters : Json.Members
  /-- What the tool answered. -/
  result : Option Json
  /-- Whether the tool ran without a fault. -/
  success : Bool
  /-- The wording of the fault. -/
  error : Option String
  /-- How long the tool ran, in milliseconds. -/
  duration : UInt64
  /-- The session of the turn. -/
  session : SessionId
  /-- The agent of the turn. -/
  agentId : String
  /-- When the tool ran. -/
  executedAt : Instant

namespace ExecutionRecord

/-- The record of a call by how it came out: a result or the wording of a fault. -/
def ofOutcome (origin : Origin) (parameters : Json.Members) (outcome : Except String Json)
    (duration : UInt64) (executedAt : Instant) : ExecutionRecord :=
  let (result, success, error) := match outcome with
    | .ok value => (some value, true, none)
    | .error message => (none, false, some message)
  ⟨origin.callId, origin.toolId, origin.toolName, parameters, result, success, error, duration,
    origin.session, origin.agentId, executedAt⟩

/-- A record tells of a success exactly when it holds a result and no fault. -/
def Consistent (record : ExecutionRecord) : Prop :=
  record.success = record.result.isSome ∧ record.success = record.error.isNone

theorem consistent_ofOutcome (origin : Origin) (parameters : Json.Members)
    (outcome : Except String Json) (duration : UInt64) (executedAt : Instant) :
    (ofOutcome origin parameters outcome duration executedAt).Consistent := by
  cases outcome <;> exact ⟨rfl, rfl⟩

/-- How a result stands in a line: a text as it is, any other value as JSON. -/
def resultText : Json → String
  | .text s => s
  | value => value.print

/-- The line of a record in the message that goes back to the model. -/
def summaryLine (record : ExecutionRecord) : String :=
  "Tool " ++ record.toolName ++ ": " ++
    match record.error, record.result with
    | some error, _ => "Error - " ++ error
    | none, some value => resultText value
    | none, none => ""

/-- The exchange form of a record. -/
def toJson (record : ExecutionRecord) : Json :=
  .record <|
    [("call_id", .text record.callId)] ++ Json.member? "tool_id" .text record.toolId ++
    [("tool_name", .text record.toolName), ("parameters", .record record.parameters)] ++
    Json.member? "result" id record.result ++ [("success", .bool record.success)] ++
    Json.member? "error" .text record.error ++
    [("duration_ms", .nat record.duration.toNat), ("session_id", .text record.session),
      ("agent_id", .text record.agentId), ("executed_at", .text record.executedAt.text)]

/-- Reads the exchange form of an instant. -/
def decodeInstant : Decoder Instant := fun rules d =>
  (Decoder.text rules d).bind Instant.ofText?

/-- Reads the exchange form of a record. -/
def decode : Decoder ExecutionRecord := fun rules d => do
  let fields ← d.fields? ["call_id", "tool_id", "tool_name", "parameters", "result", "success",
    "error", "duration_ms", "session_id", "agent_id", "executed_at"] rules
  let callId ← fields.required "call_id" Decoder.text
  let toolId ← fields.optional "tool_id" Decoder.text
  let toolName ← fields.required "tool_name" Decoder.text
  let parameters ← fields.withDefault "parameters" Json.decodeObject []
  let result ← fields.optional "result" Json.decode
  let success ← fields.required "success" Decoder.bool
  let error ← fields.optional "error" Decoder.text
  let duration ← fields.required "duration_ms" (Decoder.natBelow (Word.count 64))
  let session ← fields.required "session_id" Decoder.text
  let agentId ← fields.required "agent_id" Decoder.text
  let executedAt ← fields.required "executed_at" decodeInstant
  some ⟨callId, toolId, toolName, parameters, result, success, error, duration.toUInt64, session,
    agentId, executedAt⟩

end ExecutionRecord

end Colloquy
