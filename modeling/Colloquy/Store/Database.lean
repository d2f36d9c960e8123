import Colloquy.Json.Levels
import Colloquy.Store
import Colloquy.Store.Schema
import Colloquy.Word

/-!
# The store in a database

Sessions, messages and executions as rows of three tables. Times are kept as texts, records and
parameters as JSON texts; messages and executions are numbered in the order of their writing. A
statement fails when the database is closed or its table is missing; an append is several statements
that take effect together or not at all. A row is turned back into a value column by column, and the
first column that does not fit is reported.
-/

namespace Colloquy

/-- The content of a column of numbers, in which anything may have been put. -/
inductive Cell where
  /-- No value. -/
  | null
  /-- A number. -/
  | integer (n : Int)
  /-- Something else. -/
  | other
  deriving DecidableEq, Repr

/-- A row of the sessions. -/
structure SessionRow where
  /-- The name of the session. -/
  id : String
  /-- The agent. -/
  agentId : String
  /-- What the session is about. -/
  title : Option String
  /-- When it was opened. -/
  createdAt : String
  /-- When it was last appended to. -/
  updatedAt : String
  deriving DecidableEq, Repr

/-- A row of the messages. -/
structure MessageRow where
  /-- The name of the message. -/
  id : String
  /-- The session. -/
  session : String
  /-- The name of the role. -/
  role : String
  /-- What is said. -/
  content : String
  /-- How many tokens that is. -/
  tokenCount : Cell
  /-- The records as a JSON list. -/
  toolRecords : String
  /-- When it was appended. -/
  createdAt : String
  deriving DecidableEq, Repr

/-- A row of the executions. -/
structure ExecutionRow where
  /-- The model's name for the call. -/
  callId : String
  /-- The tool. -/
  toolId : Option String
  /-- The name of the tool. -/
  toolName : String
  /-- The parameters as a JSON object. -/
  parameters : String
  /-- The result as a JSON value. -/
  result : Option String
  /-- Whether the tool ran without a fault: any number but zero. -/
  success : Cell
  /-- The wording of the fault. -/
  error : Option String
  /-- How long the tool ran. -/
  duration : Cell
  /-- The session. -/
  session : String
  /-- The agent. -/
  agentId : String
  /-- When the tool ran. -/
  executedAt : String
  deriving DecidableEq, Repr

namespace Column

/-- The greatest number of 63 bits, which is the greatest that a column holds. -/
def maxNumber : Nat := Word.count 63 - 1

/-- A stored time; one that cannot be read is taken for the present. -/
def timeIn (now : Instant) (s : String) : Instant :=
  (Instant.ofStored? s).getD now

/-- The number in a column that has to hold one. -/
def numberIn (column : String) : Cell → Except StoreFault Int
  | .integer n => .ok n
  | _ => .error (.query (column ++ " column"))

/-- The number in a column that may hold none. -/
def numberIn? (column : String) : Cell → Except StoreFault (Option Int)
  | .null => .ok none
  | .integer n => .ok (some n)
  | .other => .error (.query (column ++ " column"))

/-- A value in JSON form, named for its column. -/
def valueIn {α : Type} (column : String) (decoder : Decoder α) (s : String) : Except StoreFault α :=
  match Json.readAs? decoder s with
  | some a => .ok a
  | none => .error (.serialization (column ++ Json.depthNote decoder s))

end Column

/-- The session of a row. -/
def SessionRow.session (now : Instant) (row : SessionRow) : Session :=
  ⟨row.id, row.agentId, row.title, Column.timeIn now row.createdAt, Column.timeIn now row.updatedAt⟩

/-- The row of a message. -/
def MessageRow.ofMessage (message : Message) : MessageRow :=
  ⟨message.id, message.session, message.role.name, message.content,
    (message.tokenCount.map fun n => Cell.integer n.toNat).getD .null,
    (Json.list (message.toolRecords.map (·.toJson))).print, message.createdAt.storedText⟩

/-- The message of a row. A count that is no word of 32 bits is passed over. -/
def MessageRow.message (now : Instant) (row : MessageRow) : Except StoreFault Message := do
  let count ← Column.numberIn? "token_count" row.tokenCount
  let role ← (Role.ofText? row.role).mapError fun unknown => .serialization unknown.message
  let records ← Column.valueIn "tool_records" (Decoder.list ExecutionRecord.decode) row.toolRecords
  let tokenCount := count.bind fun n => if 0 ≤ n && n < Word.count 32 then some n.toNat.toUInt32 else none
  pure ⟨row.id, row.session, role, row.content, tokenCount, records, Column.timeIn now row.createdAt⟩

/-- The row of a record. -/
def ExecutionRow.ofRecord (record : ExecutionRecord) : ExecutionRow :=
  ⟨record.callId, record.toolId, record.toolName, (Json.record record.parameters).print,
    record.result.map Json.print, .integer (if record.success then 1 else 0), record.error,
    .integer (min record.duration.toNat Column.maxNumber), record.session, record.agentId,
    record.executedAt.storedText⟩

/-- The record of a row. A negative duration counts as none. -/
def ExecutionRow.record (now : Instant) (row : ExecutionRow) :
    Except StoreFault ExecutionRecord := do
  let duration ← Column.numberIn "duration_ms" row.duration
  let parameters ← Column.valueIn "parameters" Json.decodeObject row.parameters
  let result ← match row.result with
    | none => pure none
    | some s => some <$> Column.valueIn "result" Json.decode s
  let success ← Column.numberIn "success" row.success
  pure ⟨row.callId, row.toolId, row.toolName, parameters, result, success != 0, row.error,
    duration.toNat.toUInt64, row.session, row.agentId, Column.timeIn now row.executedAt⟩

/-- A database. -/
structure Database where
  /-- Its tables and indexes. -/
  schema : Schema
  /-- The sessions. -/
  sessions : List SessionRow
  /-- The messages; the n-th row has the number n. -/
  messages : List MessageRow
  /-- The executions; the n-th row has the number n. -/
  executions : List ExecutionRow
  /-- Whether statements are accepted. -/
  isOpen : Bool
  /-- Whether sessions are kept from being updated. -/
  updatesBlocked : Bool
  deriving DecidableEq, Repr

namespace Database

/-- A database with nothing in it. -/
def blank : Database :=
  ⟨[], [], [], [], true, false⟩

/-- A database with its tables set up and no rows. -/
def fresh : Database :=
  { blank with schema := .standard }

/-- Whether statements on the sessions succeed. -/
def hasSessions (db : Database) : Bool :=
  db.isOpen && db.schema.hasTable "sessions" Schema.sessionColumns

/-- Whether statements on the messages succeed. -/
def hasMessages (db : Database) : Bool :=
  db.isOpen && db.schema.hasTable "messages" Schema.messageColumns

/-- Whether statements on the executions succeed. -/
def hasExecutions (db : Database) : Bool :=
  db.isOpen && db.schema.hasTable "tool_executions" Schema.executionColumns

/-- Adds a session. -/
def insertSession? (row : SessionRow) (db : Database) : Option Database :=
  if db.hasSessions && db.sessions.all (·.id != row.id) then
    some { db with sessions := db.sessions ++ [row] }
  else none

/-- Adds a session unless its name is there. -/
def insertSessionOrIgnore? (row : SessionRow) (db : Database) : Option Database :=
  if db.hasSessions then
    if db.sessions.any (·.id == row.id) then some db
    else some { db with sessions := db.sessions ++ [row] }
  else none

/-- Adds a message. -/
def insertMessage? (row : MessageRow) (db : Database) : Option Database :=
  if db.hasMessages && db.messages.all (·.id != row.id) then
    some { db with messages := db.messages ++ [row] }
  else none

/-- Sets the time of a session's last use. -/
def touchSession? (id time : String) (db : Database) : Option Database :=
  if db.hasSessions && !db.updatesBlocked then
    some { db with sessions := db.sessions.map fun row =>
      if row.id == id then { row with updatedAt := time } else row }
  else none

/-- The database after a statement, or the statement's fault. -/
def orFault (fault : StoreFault) : Option Database → Except StoreFault Database
  | some db => .ok db
  | none => .error fault

/-- The statements of an append, all together. -/
def appended (message : Message) (db : Database) : Except StoreFault Database := do
  let time := message.createdAt.storedText
  if !db.isOpen then throw (.storage "BEGIN failed")
  let db ← orFault (.storage "INSERT session failed")
    (db.insertSessionOrIgnore? ⟨message.session, "", none, time, time⟩)
  let db ← orFault (.storage "INSERT message failed")
    (db.insertMessage? (MessageRow.ofMessage message))
  orFault (.storage "UPDATE session failed") (db.touchSession? message.session time)

/-- The outcome of a change: what is answered, and the database behind it, which a change that fails
leaves as it was. -/
def outcome {α : Type} (answer : α) (db : Database) :
    Except StoreFault Database → Except StoreFault α × Database
  | .ok changed => (.ok answer, changed)
  | .error fault => (.error fault, db)

/-- Rows in the order of their last use as texts, the greatest first. -/
def byLastUse (rows : List SessionRow) : List SessionRow :=
  rows.mergeSort fun s t => decide (t.updatedAt ≤ s.updatedAt)

instance : SessionStore Database where
  name _ := "sqlite"
  openSession stamp agentId title db :=
    let time := stamp.now.storedText
    outcome stamp.name db <| orFault (.storage "INSERT session failed")
      (db.insertSession? ⟨stamp.name, agentId, title, time, time⟩)
  append stamp session draft db :=
    outcome stamp.name db (db.appended (draft.toMessage stamp.name session stamp.now))
  recentHistory now session limit db :=
    if db.hasMessages then
      (lastOf (min limit Column.maxNumber) (db.messages.filter (·.session == session))).mapM
        (MessageRow.message now)
    else .error (.query "recent history")
  session? now session db :=
    if db.hasSessions then
      .ok ((db.sessions.find? (·.id == session)).map (SessionRow.session now))
    else .error (.query "GET session")
  sessions now agentId db :=
    if db.hasSessions then
      let rows := db.sessions.filter fun row => agentId.all (row.agentId == ·)
      .ok ((byLastUse rows).map (SessionRow.session now))
    else .error (.query "list sessions")

instance : ExecutionLog Database where
  write record db :=
    outcome () db <| orFault (.storage "INSERT tool execution failed") <|
      if db.hasExecutions then
        some { db with executions := db.executions ++ [ExecutionRow.ofRecord record] }
      else none

/-- The records of a session, in the order of their writing. -/
def executionsOf (now : Instant) (session : SessionId) (db : Database) :
    Except StoreFault (List ExecutionRecord) :=
  if db.hasExecutions then
    (db.executions.filter (·.session == session)).mapM (ExecutionRow.record now)
  else .error (.query "executions")

/-- The database with its tables set up. -/
def migrated (db : Database) : Except StoreFault Database := do
  if !db.isOpen then throw (.migration "sessions table")
  let schema ← db.schema.migrated
  pure { db with schema }

/-- Closes the database. -/
def close (db : Database) : Database :=
  { db with isOpen := false }

/-- Opens the database again from its file. -/
def reopened (db : Database) : Except StoreFault Database :=
  migrated { db with isOpen := true }

end Database

end Colloquy
