import Colloquy.Command.Arguments
import Colloquy.Configuration.Place

/-!
# Invocations

What the arguments and the environment ask for: one of five commands, with the configuration file that it is to
use. Options that every command has may stand in front of its name or behind it.
-/

namespace Colloquy

/-- What to send to an agent, and how. -/
structure ChatOptions where
  /-- The agent. -/
  agent : String
  /-- The session to go on with. -/
  session : Option String
  /-- The file with the script of the model. -/
  script : String
  /-- The message. -/
  message : String
  deriving DecidableEq, Repr

/-- A command. -/
inductive Command where
  /-- Writes a configuration to start from, in place of one that is there only if forced. -/
  | start (force : Bool)
  /-- Lists the agents. -/
  | agents
  /-- Sends a message to an agent. -/
  | chat (options : ChatOptions)
  /-- Lists the sessions of one agent or of all. -/
  | sessions (agent : Option String)
  /-- Prints the last messages of a session. -/
  | history (session : String) (limit : Nat)
  deriving DecidableEq, Repr

/-- What is asked for. -/
inductive Invocation where
  /-- A command with a configuration file. -/
  | command (configuration : String) (command : Command)
  /-- Nothing that could be done. -/
  | stopped (stop : ArgumentStop)
  deriving DecidableEq, Repr

namespace Invocation

/-- How many messages of a session are printed where nothing else is asked for. -/
def standardLimit : Nat := 20

/-- The size that a text denotes: digits behind an optional plus sign. -/
def size? (s : String) : Option Nat :=
  Configuration.wordOf? 64 s

/-- An option with a text. -/
def textOption (name : String) (letter : Option Char) : OptionForm :=
  ⟨name, letter, .value fun _ => true⟩

/-- An option with a path, which must not be empty. -/
def pathOption (name : String) (letter : Option Char) : OptionForm :=
  ⟨name, letter, .value fun value => !value.isEmpty⟩

/-- The options that every command has. -/
def sharedOptions : List OptionForm :=
  [pathOption "config" (some 'c'), ⟨"verbose", some 'v', .flag⟩, ⟨"help", some 'h', .help⟩]

/-- The options in front of the name of a command. -/
def leadingOptions : List OptionForm :=
  ⟨"version", some 'V', .version⟩ :: sharedOptions

/-- The options of each command. -/
def commandOptions : List (String × List OptionForm) :=
  [("init", [⟨"force", none, .flag⟩]), ("agents", []),
    ("chat", [textOption "agent" (some 'a'), textOption "session" (some 's'),
      pathOption "script" none, textOption "user" none]),
    ("sessions", [textOption "agent" (some 'a')]),
    ("history", [⟨"limit", some 'l', .value fun value => (size? value).isSome⟩])]

/-- The value of an option or, where it is not given, of a variable, which must not be empty then. -/
def orVariable (value fromVariable : Option String) : Except ArgumentStop (Option String) :=
  match value, fromVariable with
  | some value, _ => .ok (some value)
  | none, some "" => .error .refused
  | none, fromVariable => .ok fromVariable

/-- The variable that stands in for the path of the configuration. -/
def configVariable : String := "PARLEY_CONFIG"

/-- The variable that stands in for the path of the script. -/
def scriptVariable : String := "PARLEY_REPLAY_SCRIPT"

/-- Something that has to be there. -/
def needed {α : Type} : Option α → Except ArgumentStop α
  | some a => .ok a
  | none => .error .refused

/-- The command of a name with its arguments. -/
def commandOf (env : Environment) (name : String) (arguments : Arguments) :
    Except ArgumentStop Command :=
  match name, arguments.words with
  | "init", [] => .ok (.start (arguments.has "force"))
  | "agents", [] => .ok .agents
  | "chat", [message] => do
    let script ← needed (← orVariable (arguments.option? "script") (env scriptVariable))
    let agent ← needed (arguments.option? "agent")
    pure (.chat ⟨agent, arguments.option? "session", script, message⟩)
  | "sessions", [] => .ok (.sessions (arguments.option? "agent"))
  | "history", [session] => do
    let limit := ((arguments.option? "limit").bind size?).getD standardLimit
    pure (.history session limit)
  | _, _ => .error .refused

/-- What the words behind `help` ask for. -/
def helpOn (words : List String) : ArgumentStop :=
  match words with
  | [] => .help
  | [name] => if name == "help" || commandOptions.any (·.1 == name) then .help else .refused
  | _ => .refused

/-- Reads the arguments as a command with the path of its configuration. -/
def read (env : Environment) (arguments : List String) :
    Except ArgumentStop (String × Command) := do
  let (leading, name, rest) ← Arguments.readLeading leadingOptions arguments
  if name == "help" then throw (helpOn rest)
  let options ← needed (commandOptions.lookup name)
  let own ← Arguments.read (options ++ sharedOptions) rest
  let command ← commandOf env name own
  let path ← orVariable (leading.option? "config") (env configVariable)
  let path ← orVariable (own.option? "config") ((env configVariable).filter (·.isEmpty) <|> path)
  pure (path.getD (Place.configuration env), command)

/-- What the arguments ask for. -/
def ofArguments (env : Environment) (arguments : List String) : Invocation :=
  match read env arguments with
  | .ok (path, wanted) => .command path wanted
  | .error stop => .stopped stop

end Invocation

end Colloquy
