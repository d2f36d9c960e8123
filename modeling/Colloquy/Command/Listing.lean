import Colloquy.Conversation
import Colloquy.Decimal.Layout

/-!
# Listings

The lines that commands print for agents, sessions and messages.
-/

namespace Colloquy.Listing

/-- The line of a tool. -/
def tool (tool : Tool) : String :=
  "  Tool:    " ++ tool.name ++ " [" ++ tool.kind.name ++ "]" ++
    if tool.active then "" else " (inactive)"

/-- The line of the prompt that an agent uses. -/
def prompt : Option Prompt → String
  | some prompt => "  Prompt:  " ++ toString prompt.content.length ++ " chars"
  | none => "  Prompt:  none active"

/-- The lines of an agent, the last of them empty. -/
def agent (agent : Agent) : List String :=
  [agent.id ++ " (" ++ agent.name ++ ")",
    "  Model:   " ++ agent.model.model ++ " (temperature " ++
      Decimal.Layout.plain.float32 agent.model.temperature ++ ")",
    prompt agent.activePrompt?] ++
    (if agent.tools.isEmpty then ["  Tools:   none"] else agent.tools.map tool) ++ [""]

/-- A text with blanks behind it up to a width. -/
def padded (width : Nat) (s : String) : String :=
  s ++ String.ofList (List.replicate (width - s.length) ' ')

/-- The line of a session. -/
def session (session : Session) : String :=
  session.id ++ "  " ++ padded 16 session.agentId ++ "  " ++ session.updatedAt.dateText ++ " " ++
    session.updatedAt.clockText ++ "  " ++ session.title.getD ""

/-- How a record tells of its outcome. -/
def outcome (record : ExecutionRecord) : String :=
  match record.error, record.result with
  | some error, _ => "error: " ++ error
  | none, some result => result.print
  | none, none => ""

/-- The line of a record. -/
def record (record : ExecutionRecord) : String :=
  "    tool " ++ record.toolName ++ " (" ++ toString record.duration.toNat ++ " ms) " ++
    outcome record

/-- The lines of a message. -/
def message (message : Message) : List String :=
  ("[" ++ message.createdAt.clockText ++ "] " ++ message.role.name ++ ": " ++ message.content) ::
    message.toolRecords.map record

end Colloquy.Listing
