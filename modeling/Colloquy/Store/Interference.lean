import Colloquy.Store.Database

/-!
# Interference

What may happen to a database behind the back of its store: a column of a row is overwritten, a table is
dropped, or the sessions are kept from being updated. A column of texts turns a number into its text, a
column of numbers turns a text into the number that it writes, if it writes one.
-/

namespace Colloquy

namespace Column

/-- A text in a column of texts. -/
def textOf : Json → Option String
  | .null => none
  | .text s => some s
  | .bool b => some (if b then "1" else "0")
  | value => some value.print

/-- The integer that a text writes: digits behind an optional sign, with blanks around them. -/
def integerText? (s : String) : Option Int :=
  let isGap (c : Char) : Bool := c == ' ' || (0x9 ≤ c.toNat && c.toNat ≤ 0xD)
  let cs := ((s.toList.dropWhile isGap).reverse.dropWhile isGap).reverse
  let (negative, ds) := match cs with
    | '-' :: ds => (true, ds)
    | '+' :: ds => (false, ds)
    | ds => (false, ds)
  if ds.isEmpty || !ds.all Char.isDigit then none
  else
    let n : Int := Text.Scan.digitsValue ds
    let n := if negative then -n else n
    if Word.isSigned64 n then some n else none

/-- A value in a column of numbers. -/
def cellOf : Json → Cell
  | .null => .null
  | .integer n => .integer n
  | .bool b => .integer (if b then 1 else 0)
  | .text s => (integerText? s).elim .other .integer
  | _ => .other

end Column

/-- The row with a column overwritten. -/
def SessionRow.overwrite (column : String) (value : Json) (row : SessionRow) : SessionRow :=
  let s := (Column.textOf value).getD ""
  match column with
  | "id" => { row with id := s }
  | "agent_id" => { row with agentId := s }
  | "title" => { row with title := Column.textOf value }
  | "created_at" => { row with createdAt := s }
  | "updated_at" => { row with updatedAt := s }
  | _ => row

/-- The row with a column overwritten. -/
def MessageRow.overwrite (column : String) (value : Json) (row : MessageRow) : MessageRow :=
  let s := (Column.textOf value).getD ""
  match column with
  | "id" => { row with id := s }
  | "session_id" => { row with session := s }
  | "role" => { row with role := s }
  | "content" => { row with content := s }
  | "token_count" => { row with tokenCount := Column.cellOf value }
  | "tool_records" => { row with toolRecords := s }
  | "created_at" => { row with createdAt := s }
  | _ => row

/-- The row with a column overwritten. -/
def ExecutionRow.overwrite (column : String) (value : Json) (row : ExecutionRow) : ExecutionRow :=
  let s := (Column.textOf value).getD ""
  match column with
  | "call_id" => { row with callId := s }
  | "tool_id" => { row with toolId := Column.textOf value }
  | "tool_name" => { row with toolName := s }
  | "parameters" => { row with parameters := s }
  | "result" => { row with result := Column.textOf value }
  | "success" => { row with success := Column.cellOf value }
  | "error" => { row with error := Column.textOf value }
  | "duration_ms" => { row with duration := Column.cellOf value }
  | "session_id" => { row with session := s }
  | "agent_id" => { row with agentId := s }
  | "executed_at" => { row with executedAt := s }
  | _ => row

namespace Database

/-- Overwrites a column of the session of a name; how many rows that changes, and the database. -/
def overwriteSession (id column : String) (value : Json) (db : Database) : Nat × Database :=
  let change (row : SessionRow) := if row.id == id then row.overwrite column value else row
  ((db.sessions.filter (·.id == id)).length, { db with sessions := db.sessions.map change })

/-- Overwrites a column of the message of a number; how many rows that changes, and the database. -/
def overwriteMessage (number : Nat) (column : String) (value : Json) (db : Database) :
    Nat × Database :=
  if 1 ≤ number && number ≤ db.messages.length then
    (1, { db with messages := db.messages.modify (number - 1) (·.overwrite column value) })
  else (0, db)

/-- Overwrites a column of the execution of a number; how many rows that changes, and the database. -/
def overwriteExecution (number : Nat) (column : String) (value : Json) (db : Database) :
    Nat × Database :=
  if 1 ≤ number && number ≤ db.executions.length then
    (1, { db with executions := db.executions.modify (number - 1) (·.overwrite column value) })
  else (0, db)

/-- Drops a table with its rows and all that hangs on it. -/
def dropTable (name : String) (db : Database) : Database :=
  let db := { db with schema := db.schema.withoutTable name }
  match name with
  | "sessions" => { db with sessions := [], updatesBlocked := false }
  | "messages" => { db with messages := [] }
  | "tool_executions" => { db with executions := [] }
  | _ => db

/-- Keeps the sessions from being updated. -/
def blockUpdates (db : Database) : Database :=
  { db with updatesBlocked := true }

end Database

end Colloquy
