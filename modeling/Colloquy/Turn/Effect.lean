import Colloquy.Completion.Stream
import Colloquy.Conversation
import Colloquy.Program
import Colloquy.Store.NameUse
import Colloquy.Tool.Backend

/-!
# Effects of a turn

All that a turn does outside itself: it asks the directory, the store, the model, the tools and the
clock, writes to the log, and delivers items to whoever sent the turn. Each effect has its type of
answers. A fault of the directory, the store or the model ends an attempt; those of tools and of the
log are answers like others.
-/

namespace Colloquy

/-- What a turn delivers: pieces of text, and at last perhaps the fault that ended it. -/
abbrev TurnItem := Except Fault String

/-- An effect of a turn. -/
inductive Effect where
  /-- Looks up an agent. -/
  | findAgent (id : String)
  /-- Opens a session. -/
  | openSession (agentId : String) (title : Option String)
  /-- Appends a message to a session. -/
  | append (session : SessionId) (draft : Draft)
  /-- Reads the last messages of a session. -/
  | recentHistory (session : SessionId) (limit : Nat)
  /-- Calls the model. -/
  | complete (request : CompletionRequest)
  /-- Runs a tool. -/
  | invoke (tool : Tool) (parameters : Json.Members)
  /-- Writes a record to the log. -/
  | writeLog (record : ExecutionRecord)
  /-- Delivers an item. -/
  | deliver (item : TurnItem)
  /-- Reads the clock. -/
  | readClock
  /-- Waits for what never comes. -/
  | waitForever

/-- The answers to an effect. That to running a tool tells also for how many milliseconds it ran. -/
@[reducible]
def Effect.Answer : Effect → Type
  | .findAgent _ => Except StoreFault (Option Agent)
  | .openSession _ _ => Except StoreFault SessionId
  | .append _ _ => Except StoreFault MessageId
  | .recentHistory _ _ => Except StoreFault (List Message)
  | .complete _ => Except ModelFault ModelStream
  | .invoke _ _ => Reply × UInt64
  | .writeLog _ => Except StoreFault Unit
  | .deliver _ => Unit
  | .readClock => Instant
  | .waitForever => Empty

/-- What an effect takes a new name for. -/
def Effect.nameUse? : Effect → Option NameUse
  | .openSession _ _ => some .session
  | .append _ _ => some .message
  | _ => none

/-- Whether an effect may change the store or the log. -/
def Effect.mayChangeStore : Effect → Bool
  | .openSession _ _ | .append _ _ | .writeLog _ => true
  | _ => false

/-- A program of effects. -/
abbrev TurnProgram := Program Effect Effect.Answer

/-- The program of a single effect. -/
def Effect.ask (effect : Effect) : TurnProgram effect.Answer :=
  Program.query effect

/-- The items that were delivered in a run. -/
def delivered (exchanges : List (Program.Exchange Effect.Answer)) : List TurnItem :=
  exchanges.filterMap fun
    | ⟨.deliver item, _⟩ => some item
    | _ => none

/-- The requests that the model got in a run. -/
def requested (exchanges : List (Program.Exchange Effect.Answer)) : List CompletionRequest :=
  exchanges.filterMap fun
    | ⟨.complete request, _⟩ => some request
    | _ => none

/-- A program of effects that a fault may end early. -/
abbrev Attempt := ExceptT Fault TurnProgram

namespace Attempt

/-- An effect on the directory or the store, whose fault ends the attempt. -/
def ofStore {α : Type} (program : TurnProgram (Except StoreFault α)) : Attempt α :=
  ExceptT.mk (program >>= fun answer => pure (answer.mapError .store))

/-- Looks up an agent. -/
def findAgent (id : String) : Attempt (Option Agent) :=
  ofStore (Effect.ask (.findAgent id))

/-- Opens a session. -/
def openSession (agentId : String) (title : Option String) : Attempt SessionId :=
  ofStore (Effect.ask (.openSession agentId title))

/-- Appends a message to a session. -/
def append (session : SessionId) (draft : Draft) : Attempt MessageId :=
  ofStore (Effect.ask (.append session draft))

/-- Reads the last messages of a session. -/
def recentHistory (session : SessionId) (limit : Nat) : Attempt (List Message) :=
  ofStore (Effect.ask (.recentHistory session limit))

/-- Calls the model. -/
def complete (request : CompletionRequest) : Attempt ModelStream :=
  ExceptT.mk do
    let answer : Except ModelFault ModelStream ← Effect.ask (.complete request)
    pure (answer.mapError .model)

end Attempt

end Colloquy
