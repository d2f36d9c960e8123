import Colloquy.Store.Database

/-!
# The text of a database

How a database stands in a file: a JSON object with the rows of each table in their order. The schema is not
written, for a database that is read has all its tables.
-/

namespace Colloquy

namespace Cell

/-- A cell in a file. -/
def toJson : Cell → Json
  | .null => .null
  | .integer n => .integer n
  | .other => .text ""

/-- Reads a cell. -/
def decode : Decoder Cell
  | _, .null => some .null
  | _, .integer n => some (.integer n)
  | _, .text _ => some .other
  | _, _ => none

end Cell

/-- A row of the sessions in a file. -/
def SessionRow.toJson (row : SessionRow) : Json :=
  .record <| [("id", .text row.id), ("agent_id", .text row.agentId)] ++
    Json.member? "title" .text row.title ++
    [("created_at", .text row.createdAt), ("updated_at", .text row.updatedAt)]

/-- Reads a row of the sessions. -/
def SessionRow.decode : Decoder SessionRow := fun rules d => do
  let fields ← d.fields? ["id", "agent_id", "title", "created_at", "updated_at"] rules
  let id ← fields.required "id" Decoder.text
  let agentId ← fields.required "agent_id" Decoder.text
  let title ← fields.optional "title" Decoder.text
  let createdAt ← fields.required "created_at" Decoder.text
  let updatedAt ← fields.required "updated_at" Decoder.text
  some ⟨id, agentId, title, createdAt, updatedAt⟩

/-- A row of the messages in a file. -/
def MessageRow.toJson (row : MessageRow) : Json :=
  .record [("id", .text row.id), ("session_id", .text row.session), ("role", .text row.role),
    ("content", .text row.content), ("token_count", row.tokenCount.toJson),
    ("tool_records", .text row.toolRecords), ("created_at", .text row.createdAt)]

/-- Reads a row of the messages. -/
def MessageRow.decode : Decoder MessageRow := fun rules d => do
  let fields ← d.fields? ["id", "session_id", "role", "content", "token_count", "tool_records",
    "created_at"] rules
  let id ← fields.required "id" Decoder.text
  let session ← fields.required "session_id" Decoder.text
  let role ← fields.required "role" Decoder.text
  let content ← fields.required "content" Decoder.text
  let tokenCount ← fields.required "token_count" Cell.decode
  let toolRecords ← fields.required "tool_records" Decoder.text
  let createdAt ← fields.required "created_at" Decoder.text
  some ⟨id, session, role, content, tokenCount, toolRecords, createdAt⟩

/-- A row of the executions in a file. -/
def ExecutionRow.toJson (row : ExecutionRow) : Json :=
  .record <| [("call_id", .text row.callId)] ++ Json.member? "tool_id" .text row.toolId ++
    [("tool_name", .text row.toolName), ("parameters", .text row.parameters)] ++
    Json.member? "result" .text row.result ++ [("success", row.success.toJson)] ++
    Json.member? "error" .text row.error ++
    [("duration_ms", row.duration.toJson), ("session_id", .text row.session),
      ("agent_id", .text row.agentId), ("executed_at", .text row.executedAt)]

/-- Reads a row of the executions. -/
def ExecutionRow.decode : Decoder ExecutionRow := fun rules d => do
  let fields ← d.fields? ["call_id", "tool_id", "tool_name", "parameters", "result", "success",
    "error", "duration_ms", "session_id", "agent_id", "executed_at"] rules
  let callId ← fields.required "call_id" Decoder.text
  let toolId ← fields.optional "tool_id" Decoder.text
  let toolName ← fields.required "tool_name" Decoder.text
  let parameters ← fields.required "parameters" Decoder.text
  let result ← fields.optional "result" Decoder.text
  let success ← fields.required "success" Cell.decode
  let error ← fields.optional "error" Decoder.text
  let duration ← fields.required "duration_ms" Cell.decode
  let session ← fields.required "session_id" Decoder.text
  let agentId ← fields.required "agent_id" Decoder.text
  let executedAt ← fields.required "executed_at" Decoder.text
  some ⟨callId, toolId, toolName, parameters, result, success, error, duration, session, agentId,
    executedAt⟩

namespace Database

/-- The text of a database. -/
def text (db : Database) : String :=
  (Json.record [("sessions", .list (db.sessions.map (·.toJson))),
    ("messages", .list (db.messages.map (·.toJson))),
    ("executions", .list (db.executions.map (·.toJson)))]).print

/-- Reads a database that has all its tables. -/
def decode : Decoder Database := fun rules d => do
  let fields ← d.fields? ["sessions", "messages", "executions"] rules
  let sessions ← fields.required "sessions" (Decoder.list SessionRow.decode)
  let messages ← fields.required "messages" (Decoder.list MessageRow.decode)
  let executions ← fields.required "executions" (Decoder.list ExecutionRow.decode)
  some { fresh with sessions, messages, executions }

/-- The database of a text. An empty text is that of a new database. -/
def ofText? (s : String) : Option Database :=
  if s.isEmpty then some fresh else Json.readAs? decode s

end Database

end Colloquy
