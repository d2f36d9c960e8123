/-!
# Faults

What can go wrong in the parties that a turn relies on: the model, the session store and the tools.
Each party has its own causes, and each cause its own wording.
-/

namespace Colloquy

/-- Why the model gave no answer, or broke one off. -/
inductive ModelFault where
  /-- The service refused the request with a status. -/
  | refused (status : UInt16) (message : String)
  /-- The stream of an answer broke off. -/
  | interrupted (message : String)
  /-- No model is set up. -/
  | notConfigured (message : String)
  /-- A script had no answer left after this many calls. -/
  | exhausted (calls : Nat)
  deriving DecidableEq, Repr

/-- The wording of a model fault. -/
def ModelFault.message : ModelFault → String
  | .refused status message => "API request failed: " ++ message ++ " (status: " ++ toString status.toNat ++ ")"
  | .interrupted message => "Stream interrupted: " ++ message
  | .notConfigured message => "Model gateway not configured: " ++ message
  | .exhausted calls => "Replay script exhausted after " ++ toString calls ++ " model calls"

/-- Why a store could not do what it was asked. -/
inductive StoreFault where
  /-- It could not be opened or written. -/
  | storage (message : String)
  /-- It could not be read. -/
  | query (message : String)
  /-- Its tables could not be set up. -/
  | migration (message : String)
  /-- A value could not be taken to its stored form or back. -/
  | serialization (message : String)
  deriving DecidableEq, Repr

/-- The wording of a store fault. -/
def StoreFault.message : StoreFault → String
  | .storage message => "Storage error: " ++ message
  | .query message => "Query failed: " ++ message
  | .migration message => "Migration failed: " ++ message
  | .serialization message => "Serialization failed: " ++ message

/-- Why a tool gave no result. -/
inductive ToolFault where
  /-- Nothing goes by that name. -/
  | notFound (name : String)
  /-- The tool ran and failed. -/
  | failed (tool reason : String)
  /-- The tool cannot run with these parameters. -/
  | invalidArguments (message : String)
  deriving DecidableEq, Repr

/-- The wording of a tool fault. -/
def ToolFault.message : ToolFault → String
  | .notFound name => "Tool not found: " ++ name
  | .failed tool reason => "Tool execution failed: " ++ tool ++ " — " ++ reason
  | .invalidArguments message => "Invalid tool arguments: " ++ message

/-- A fault of any party. -/
inductive Fault where
  /-- A fault of the model. -/
  | model (fault : ModelFault)
  /-- A fault of a store. -/
  | store (fault : StoreFault)
  /-- A fault of a tool. -/
  | tool (fault : ToolFault)
  deriving DecidableEq, Repr

/-- The wording of a fault, which names its party. -/
def Fault.message : Fault → String
  | .model fault => "Model error: " ++ fault.message
  | .store fault => "Store error: " ++ fault.message
  | .tool fault => "Tool error: " ++ fault.message

/-- A text that names none of the choices there are. -/
structure UnknownName where
  /-- What a choice would have been. -/
  sort : String
  /-- The text. -/
  name : String
  deriving DecidableEq, Repr

/-- The wording of an unknown name. -/
def UnknownName.message (unknown : UnknownName) : String :=
  "unknown " ++ unknown.sort ++ ": " ++ unknown.name

end Colloquy
