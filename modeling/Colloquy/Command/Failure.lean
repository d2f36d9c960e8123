import Colloquy.Configuration.Loading
import Colloquy.Fault
import Colloquy.Shell

/-!
# Failures of commands

Why a command failed, and the report of it, which shows the cause with all its parts.
-/

namespace Colloquy

/-- Why a command failed. -/
inductive Failure where
  /-- There is no configuration. -/
  | configuration (fault : ConfigFault)
  /-- There is no session of that name. -/
  | noSession (id : String)
  /-- The model is not set up. -/
  | model (fault : ModelFault)
  /-- The store did not do what it was asked. -/
  | store (fault : StoreFault)
  /-- A turn ended with a fault. -/
  | turn (fault : Fault)
  /-- The shell did not do what it was asked. -/
  | shell (fault : ShellFault)
  deriving DecidableEq, Repr

/-- A cause with a text. -/
def causeText (name s : String) : String :=
  name ++ "(" ++ Text.quoted s ++ ")"

/-- A model fault with all its parts. -/
def ModelFault.report : ModelFault → String
  | .refused status message =>
    "ApiError \x7b status_code: " ++ toString status.toNat ++ ", message: " ++
      Text.quoted message ++ " \x7d"
  | .interrupted message => causeText "StreamInterrupted" message
  | .notConfigured message => causeText "NotConfigured" message
  | .exhausted calls => "ScriptExhausted \x7b calls: " ++ toString calls ++ " \x7d"

/-- A store fault with all its parts. -/
def StoreFault.report : StoreFault → String
  | .storage message => causeText "Storage" message
  | .query message => causeText "QueryFailed" message
  | .migration message => causeText "MigrationFailed" message
  | .serialization message => causeText "Serialization" message

/-- A tool fault with all its parts. -/
def ToolFault.report : ToolFault → String
  | .notFound name => causeText "NotFound" name
  | .failed tool reason =>
    "ExecutionFailed \x7b tool_name: " ++ Text.quoted tool ++ ", reason: " ++ Text.quoted reason ++
      " \x7d"
  | .invalidArguments message => causeText "InvalidArguments" message

/-- A fault with all its parts. -/
def Fault.report : Fault → String
  | .model fault => "Model(" ++ fault.report ++ ")"
  | .store fault => "Store(" ++ fault.report ++ ")"
  | .tool fault => "Tool(" ++ fault.report ++ ")"

/-- The report of a failure. -/
def Failure.report : Failure → String
  | .configuration fault => Text.quoted ("Failed to load config: " ++ fault.message)
  | .noSession id => Text.quoted ("Session not found: " ++ id)
  | .model fault => fault.report
  | .store fault => fault.report
  | .turn fault => fault.report
  | .shell fault => fault.report

/-- A program for the shell that may fail. -/
abbrev Errand := ExceptT Failure ShellProgram

namespace Errand

/-- A call of the shell. -/
def call (call : ShellCall) : Errand call.Answer :=
  ExceptT.lift call.ask

/-- Never ends. -/
def waitForever {α : Type} : Errand α :=
  ExceptT.lift (Program.ask ShellCall.waitForever Empty.elim)

/-- A program whose faults are failures of the shell. -/
def orShell {α : Type} (program : ShellProgram (Except ShellFault α)) : Errand α :=
  ExceptT.mk (program >>= fun answer => pure (answer.mapError .shell))

/-- A program whose faults are failures of the store. -/
def orStore {α : Type} (program : ShellProgram (Except StoreFault α)) : Errand α :=
  ExceptT.mk (program >>= fun answer => pure (answer.mapError .store))

/-- An answer of the store. -/
def ofStore {α : Type} (answer : Except StoreFault α) : Errand α :=
  ExceptT.mk (pure (answer.mapError .store))

/-- Prints lines. -/
def printLines : List String → Errand Unit
  | [] => pure ()
  | line :: rest => do
    let _ ← call (.print (line ++ "\n"))
    printLines rest

end Errand

end Colloquy
