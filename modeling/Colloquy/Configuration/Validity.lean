import Colloquy.Configuration
import Colloquy.Text.Blank
import Colloquy.Text.LowerCase

/-!
# Valid configurations

The rules that a configuration has to keep, checked in a fixed order: the bounds first, then the
agents one after another. The first rule that is broken is reported.
-/

namespace Colloquy

/-- A broken rule. -/
inductive Violation where
  /-- A bound is zero. -/
  | zeroBound
  /-- An agent has a blank id. -/
  | blankAgentId
  /-- Two agents have one id. -/
  | duplicateAgentId (id : String)
  /-- The temperature of an agent is out of range. -/
  | temperature (agentId : String)
  /-- Two tools of an agent differ at most in letter case. -/
  | duplicateTool (agentId name : String)
  /-- A variable names no kind of storage. -/
  | unknownStorage (unknown : UnknownName)
  /-- A variable holds no number. -/
  | depthNotANumber (value : String)
  deriving DecidableEq, Repr

/-- The wording of a broken rule. -/
def Violation.message : Violation → String
  | .zeroBound => "orchestrator settings must all be at least 1"
  | .blankAgentId => "agent id must not be empty"
  | .duplicateAgentId id => "duplicate agent id: " ++ id
  | .temperature agentId => "agent " ++ agentId ++ ": temperature must be between 0.0 and 2.0"
  | .duplicateTool agentId name => "agent " ++ agentId ++ ": duplicate tool name: " ++ name
  | .unknownStorage unknown => unknown.message
  | .depthNotANumber value => "PARLEY_MAX_DEPTH is not a number: " ++ value

namespace Configuration

/-- The first element whose key another one before it has. -/
def firstRepeated? {α : Type} (key : α → String) : (seen : List String) → List α → Option α
  | _, [] => none
  | seen, a :: rest =>
    if seen.contains (key a) then some a else firstRepeated? key (key a :: seen) rest

/-- Whether a temperature is in range; no number is not. -/
def isTemperature (x : Float32) : Bool :=
  0 ≤ x && x ≤ 2

/-- The first rule that an agent breaks, given the ids of the agents before it. -/
def agentViolation? (seen : List String) (agent : AgentDefinition) : Option Violation :=
  if Text.isBlankText agent.id then some .blankAgentId
  else if seen.contains agent.id then some (.duplicateAgentId agent.id)
  else if !isTemperature agent.model.temperature then some (.temperature agent.id)
  else (firstRepeated? (fun tool => Text.lower tool.name) [] agent.tools).map fun tool =>
    .duplicateTool agent.id tool.name

/-- The first rule that some agents break, given the ids of the agents before them. -/
def agentsViolation? : (seen : List String) → List AgentDefinition → Option Violation
  | _, [] => none
  | seen, agent :: rest =>
    (agentViolation? seen agent).or (agentsViolation? (agent.id :: seen) rest)

/-- The first rule that a configuration breaks. -/
def violation? (config : Configuration) : Option Violation :=
  if config.settings.hasZero then some .zeroBound else agentsViolation? [] config.agents

/-- The configuration, if it breaks no rule. -/
def validated (config : Configuration) : Except Violation Configuration :=
  match config.violation? with
  | some violation => .error violation
  | none => .ok config

end Configuration

end Colloquy
