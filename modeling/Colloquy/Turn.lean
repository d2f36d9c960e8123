import Colloquy.PromptText
import Colloquy.Text.Blank
import Colloquy.Turn.Batch
import Colloquy.Turn.Heed
import Colloquy.Turn.Settings

/-!
# Turns

A turn answers one message of a person. It appends the message to the session and then works in
levels. On each level it calls the model with the recent history and the content of the level, and
delivers the text of the answer piece by piece. Calls that the answer makes are run as a batch,
whose records are the content of the next level; the first answer without calls ends the turn, and
so does the greatest depth. What was delivered and what was executed on all levels is appended at
last as one message. Before whatever it does, a turn looks whether there is still a listener, and if
there is none it stops.
-/

namespace Colloquy

/-- A message that a person sends. -/
structure TurnRequest where
  /-- The agent, by its id. -/
  agentId : Option String
  /-- The message. -/
  content : String
  /-- The session to go on with; a new one is opened if there is none. -/
  session : Option SessionId
  deriving DecidableEq, Repr

/-- Why a request is turned away. -/
inductive Rejection where
  /-- It names no agent. -/
  | noAgentId
  /-- Its message is blank. -/
  | noContent
  /-- There is no agent of that id. -/
  | unknownAgent
  /-- The agent has no active prompt. -/
  | noPrompt
  deriving DecidableEq, Repr

/-- The wording of a rejection. -/
def Rejection.message : Rejection → String
  | .noAgentId => "Agent ID is required"
  | .noContent => "Message content is required"
  | .unknownAgent => "Agent not found"
  | .noPrompt => "Agent has no active prompt"

/-- A message about the turn among the pieces of text that it delivers. -/
def notice (message : String) : String :=
  "Error: " ++ message

/-- A turn that is ready to run. -/
structure Turn where
  /-- The agent. -/
  agent : Agent
  /-- The prompt that instructs the model. -/
  prompt : Prompt
  /-- The message of the person. -/
  content : String
  /-- The session to go on with. -/
  session : Option SessionId
  /-- Records from before the turn that count as executed in it. -/
  carried : List ExecutionRecord

/-- What a turn has to know of its surroundings. -/
structure TurnScope where
  /-- The bounds of the turn. -/
  settings : TurnSettings
  /-- The kinds of tools that some backend runs. -/
  serves : ToolKind → Bool
  /-- How many levels are looked at. A turn that goes on behind them counts as endless. -/
  horizon : Nat

/-- How far a turn has come. -/
structure Progress where
  /-- The content of the next level. -/
  content : String
  /-- All text that was delivered. -/
  text : String
  /-- All records up to now. -/
  records : List ExecutionRecord
  /-- The number of the next level. -/
  depth : UInt32

namespace TurnRequest

/-- The id of the agent that a request is for, if nothing is missing in it. -/
def addressee (request : TurnRequest) : Except Rejection String :=
  match request.agentId.map Text.trim with
  | none | some "" => .error .noAgentId
  | some id => if Text.isBlankText request.content then .error .noContent else .ok id

/-- The turn of a request for an agent. -/
def turnOf (request : TurnRequest) (agent : Option Agent) : Except Rejection Turn :=
  match agent with
  | none => .error .unknownAgent
  | some agent =>
    match agent.activePrompt? with
    | none => .error .noPrompt
    | some prompt => .ok ⟨agent, prompt, request.content, request.session, []⟩

/-- The turn of a request, whose agent is looked up. -/
def resolve (request : TurnRequest) : Heedful (Except Rejection Turn) := do
  match request.addressee with
  | .error rejection => pure (.error rejection)
  | .ok id => do
    let agent ← Heedful.ofAttempt (Attempt.findAgent id)
    pure (request.turnOf agent)

end TurnRequest

namespace Turn

/-- How many characters of its first message are the title of a session. -/
def titleChars : Nat := 60

/-- The title of a session that opens with a message. -/
def title (content : String) : String :=
  preview content titleChars

/-- The request of a level. -/
def request (turn : Turn) (previewChars : Nat) (history : List Message) (content : String) :
    CompletionRequest :=
  let binding := turn.agent.model
  let earlier := history.map fun message => (message.role, message.content)
  ⟨binding.model, binding.temperature, binding.maxTokens,
    PromptText.compose turn.prompt.content previewChars earlier content, turn.agent.toolSchemas⟩

/-- Delivers the pieces that a reader pulls out of a stream, each as it arrives and behind the text
so far. At the end of the stream, gives all the text and the calls. -/
def forward (text : String) (reader : Aggregator) : Heedful (String × List ToolCall) :=
  match _ : reader.pull with
  | (.text piece, next) => do
    Heedful.await
    Heedful.say piece
    forward (text ++ piece) next
  | (.over, next) => do
    Heedful.await
    pure (text, next.finish)
  | (.fault fault, _) => do
    Heedful.await
    throw (.fault (.model fault))
  | (.waiting, _) => Heedful.waitForever
termination_by reader.stream.items.length
decreasing_by exact reader.length_lt_of_pull ‹_›

/-- Calls the model with the content of a level and delivers the answer behind the text so far. -/
def answer (settings : TurnSettings) (turn : Turn) (session : SessionId) (content text : String) :
    Heedful (String × List ToolCall) := do
  let history ← Heedful.ofAttempt (Attempt.recentHistory session settings.historyLimit)
  let request := turn.request settings.previewChars history content
  let stream ← Heedful.ofAttempt (Attempt.complete request)
  forward text (.ofStream stream)

/-- The notice that a turn went too deep. -/
def depthNotice (maxDepth : UInt32) : String :=
  notice ("Maximum tool-call depth of " ++ toString maxDepth.toNat ++ " exceeded")

/-- Works through levels until one ends the turn. -/
def levels (scope : TurnScope) (turn : Turn) (session : SessionId) :
    Nat → Progress → Heedful Progress
  | 0, _ => Heedful.waitForever
  | horizon + 1, progress => do
    let settings := scope.settings.effective
    if settings.maxDepth < progress.depth then
      Heedful.say (depthNotice settings.maxDepth)
      pure progress
    else
      let (text, calls) ← answer settings turn session progress.content progress.text
      if calls.isEmpty then pure { progress with text }
      else
        let batch ← Heedful.guard (Batch.calls scope.serves turn.agent session calls)
        levels scope turn session horizon
          ⟨followUp batch, text, progress.records ++ batch, progress.depth + 1⟩

/-- Appends what a turn delivered and executed, unless that is nothing. Of the records, only those
of successes are appended. -/
def conclude (session : SessionId) (progress : Progress) : Heedful Unit := do
  if !progress.text.isEmpty || !progress.records.isEmpty then
    let _ ← Heedful.ofAttempt <| Attempt.append session
      (.assistant progress.text (progress.records.filter (·.success)))

/-- The session of a turn, which is opened if none is given. -/
def enter (turn : Turn) : Heedful SessionId :=
  match turn.session with
  | some session => pure session
  | none => Heedful.ofAttempt (Attempt.openSession turn.agent.id (some (title turn.content)))

/-- Performs a turn. -/
def perform (scope : TurnScope) (turn : Turn) : Heedful Unit := do
  let session ← turn.enter
  let _ ← Heedful.ofAttempt (Attempt.append session (.user turn.content))
  let progress ← levels scope turn session scope.horizon ⟨turn.content, "", turn.carried, 1⟩
  conclude session progress

/-- A turn as a program that looks for its listener. -/
def heedful (scope : TurnScope) (turn : Turn) : HeedfulProgram Unit :=
  (turn.perform scope).reported

/-- Runs a turn for a listener who stays. -/
def run (scope : TurnScope) (turn : Turn) : TurnProgram Unit :=
  (turn.heedful scope).attended

end Turn

namespace TurnRequest

/-- Performs the turn of a request, or turns the request away with a notice. -/
def perform (scope : TurnScope) (request : TurnRequest) : Heedful Unit := do
  match ← request.resolve with
  | .ok turn => turn.perform scope
  | .error rejection => Heedful.say (notice rejection.message)

/-- A request as a program that looks for its listener. -/
def heedful (scope : TurnScope) (request : TurnRequest) : HeedfulProgram Unit :=
  (request.perform scope).reported

/-- Runs a request for a listener who stays. -/
def run (scope : TurnScope) (request : TurnRequest) : TurnProgram Unit :=
  (request.heedful scope).attended

end TurnRequest

end Colloquy
