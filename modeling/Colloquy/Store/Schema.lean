import Colloquy.Fault
import Colloquy.Text.Case

/-!
# The schema of the database

The tables and indexes that the sessions and the execution log need, and how they are set up in a
database that may already hold something: what is there under its name and of its sort is kept, the
rest is made. Tables and indexes share their names.
-/

namespace Colloquy

/-- What a name stands for in a database. -/
inductive SchemaObject where
  /-- A table with some columns. -/
  | table (columns : List String)
  /-- An index on a table. -/
  | index (on : String)
  deriving DecidableEq, Repr

/-- The named objects of a database. Letter case does not distinguish names. -/
abbrev Schema := List (String × SchemaObject)

namespace Schema

/-- The object of a name. -/
def object? (schema : Schema) (name : String) : Option SchemaObject :=
  (List.find? (fun entry => Text.alike entry.1 name) schema).map (·.2)

/-- Whether there is a table of a name with at least some columns. -/
def hasTable (schema : Schema) (name : String) (columns : List String) : Bool :=
  match schema.object? name with
  | some (.table present) => columns.all present.contains
  | _ => false

/-- The schema without a table and the indexes on it. -/
def withoutTable (schema : Schema) (name : String) : Schema :=
  schema.filter fun (other, object) => match object with
    | .table _ => !Text.alike other name
    | .index on => !Text.alike on name

/-- A step of the setting up. -/
inductive Step where
  /-- A table is to be there. -/
  | table (name : String) (columns : List String)
  /-- An index is to be there, on columns of a table. -/
  | index (name on : String) (columns : List String)
  deriving DecidableEq, Repr

/-- How messages name a step. -/
def Step.label : Step → String
  | .table name _ => name ++ " table"
  | .index _ on _ => on ++ " index"

/-- The schema after a step, unless it fails. A table cannot have the name of an index, nor an index
that of a table; an index needs its columns. -/
def Step.apply? (schema : Schema) : Step → Option Schema
  | .table name columns =>
    match schema.object? name with
    | none => some (schema ++ [(name, .table columns)])
    | some (.table _) => some schema
    | some (.index _) => none
  | .index name on columns =>
    match schema.object? name with
    | none => if schema.hasTable on columns then some (schema ++ [(name, .index on)]) else none
    | some (.table _) => none
    | some (.index _) => some schema

/-- The columns of sessions. -/
def sessionColumns : List String :=
  ["id", "agent_id", "title", "created_at", "updated_at"]

/-- The columns of messages. -/
def messageColumns : List String :=
  ["seq", "id", "session_id", "role", "content", "token_count", "tool_records", "created_at"]

/-- The columns of executions. -/
def executionColumns : List String :=
  ["seq", "call_id", "tool_id", "tool_name", "parameters", "result", "success", "error",
    "duration_ms", "session_id", "agent_id", "executed_at"]

/-- The steps, in their order. -/
def steps : List Step :=
  [.table "sessions" sessionColumns,
    .table "messages" messageColumns,
    .index "idx_messages_session" "messages" ["session_id", "seq"],
    .table "tool_executions" executionColumns,
    .index "idx_tool_executions_session" "tool_executions" ["session_id", "seq"]]

/-- The schema with all that is needed, or the first step that fails. -/
def migrated (schema : Schema) : Except StoreFault Schema :=
  steps.foldlM (fun schema step =>
    match step.apply? schema with
    | some schema => .ok schema
    | none => .error (.migration step.label)) schema

/-- The schema of a new database. -/
def standard : Schema :=
  [("sessions", .table sessionColumns), ("messages", .table messageColumns),
    ("idx_messages_session", .index "messages"), ("tool_executions", .table executionColumns),
    ("idx_tool_executions_session", .index "tool_executions")]

end Schema

end Colloquy
