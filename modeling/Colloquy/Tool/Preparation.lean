import Colloquy.Tool.Backend
import Colloquy.Text.Blank

/-!
# Preparing a call

A call is ready to run when it names an active tool of the agent and some backend serves the tool's
kind. Its arguments never stand in the way: whatever is no JSON object counts as no parameters.
-/

namespace Colloquy

/-- Why a call cannot run. -/
inductive PreparationFault where
  /-- The agent has no active tool of that name. -/
  | unknownTool (name : String)
  /-- No backend serves the kind of the tool. -/
  | noBackend (kind : ToolKind)
  deriving DecidableEq, Repr

/-- The wording of a preparation fault. -/
def PreparationFault.message : PreparationFault → String
  | .unknownTool name => "Tool '" ++ name ++ "' not found or not assigned to this agent"
  | .noBackend kind => "No provider found for tool type: " ++ kind.name

/-- The parameters that the arguments of a call denote. -/
def parseArguments (raw : String) : Json.Members :=
  ((Json.read? raw).bind Json.asRecord?).getD []

/-- A call that is ready to run. -/
structure PreparedCall where
  /-- The tool. -/
  tool : Tool
  /-- Its parameters. -/
  parameters : Json.Members

/-- Resolves a call to a tool and its parameters, given which kinds of tools some backend serves. -/
def prepare (serves : ToolKind → Bool) (agent : Agent) (call : ToolCall) :
    Except PreparationFault PreparedCall :=
  match agent.findTool? call.name with
  | none => .error (.unknownTool call.name)
  | some tool =>
    if serves tool.kind then .ok ⟨tool, parseArguments call.arguments⟩
    else .error (.noBackend tool.kind)

/-- Whatever is prepared is an active tool of the agent that goes by the name of the call. -/
theorem mem_of_prepare {serves : ToolKind → Bool} {agent : Agent} {call : ToolCall}
    {prepared : PreparedCall} (h : prepare serves agent call = .ok prepared) :
    prepared.tool ∈ agent.tools ∧ prepared.tool.active = true ∧
      prepared.tool.goesBy call.name = true := by
  unfold prepare at h
  split at h
  · cases h
  · next tool found =>
    split at h
    · cases h
      exact Agent.mem_of_findTool?_eq_some found
    · cases h

end Colloquy
