import Colloquy.Tool.Preparation
import Colloquy.Turn.Effect

/-!
# Batches of calls

The calls of one completion run one after another, and each leaves exactly one record. A call that
cannot be prepared fails without any tool being run or any record being logged; of the others, the
record is logged, and it does not matter whether the log takes it.
-/

namespace Colloquy.Batch

/-- Runs one call. -/
def call (serves : ToolKind → Bool) (agent : Agent) (session : SessionId) (call : ToolCall) :
    TurnProgram ExecutionRecord := do
  match prepare serves agent call with
  | .error fault =>
    let now : Instant ← Effect.ask .readClock
    let origin := ⟨call.id, none, call.name, session, agent.id⟩
    pure (.ofOutcome origin (parseArguments call.arguments) (.error fault.message) 0 now)
  | .ok ⟨tool, parameters⟩ =>
    let (reply, duration) ← Effect.ask (.invoke tool parameters)
    let now : Instant ← Effect.ask .readClock
    let origin := ⟨call.id, some tool.id, tool.name, session, agent.id⟩
    let record := .ofOutcome origin parameters (reply.mapError ToolFault.message) duration now
    let _ ← Effect.ask (.writeLog record)
    pure record

/-- Runs calls one after another. -/
def calls (serves : ToolKind → Bool) (agent : Agent) (session : SessionId) :
    List ToolCall → TurnProgram (List ExecutionRecord)
  | [] => pure []
  | first :: rest => do
    let record ← call serves agent session first
    let records ← calls serves agent session rest
    pure (record :: records)

end Colloquy.Batch
