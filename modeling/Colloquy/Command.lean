import Colloquy.Command.Chat
import Colloquy.Command.Listing
import Colloquy.Configuration.Starter
import Colloquy.Store.Memory
import Colloquy.Store.Opening

/-!
# Commands

The five commands as programs for the shell. All but the first load the configuration, and those that need
sessions then open the storage that it names; the storage in memory lasts no longer than the command.
-/

namespace Colloquy

/-- How a command ends. -/
inductive Exit where
  /-- In good order. -/
  | fine
  /-- With a failure. -/
  | failed (failure : Failure)
  /-- It was never started, for its arguments are wrong. -/
  | refused
  deriving DecidableEq, Repr

/-- The number of an exit. -/
def Exit.code : Exit → UInt32
  | .fine => 0
  | .failed _ => 1
  | .refused => 2

namespace Command

/-- The version of the program. -/
def versionText : String :=
  "parley 0.1.0"

/-- How the program is used. -/
def usage : List String :=
  ["Usage: parley [OPTIONS] <COMMAND>", "", "Commands:",
    "  init      Create the config directory and a starter config", "  agents    List configured agents",
    "  chat      Send one message to an agent", "  sessions  List sessions",
    "  history   Print the messages of a session", "", "Options:",
    "  -v, --verbose          Enable verbose logging",
    "  -c, --config <CONFIG>  Config file (default: ~/.parley/config.toml)",
    "  -h, --help             Print help", "  -V, --version          Print version"]

/-- Loads the configuration in a file. -/
def configuration (env : Environment) (path : String) : Errand Configuration := do
  let found : Except ShellFault String ← Errand.call (.readText path)
  let source : ConfigSource := match found with
    | .ok content => .text content
    | .error fault => if fault.meansAbsent then .missing else .unreadable
  ExceptT.mk (pure ((Configuration.load source env).mapError .configuration))

/-- Opens the storage of a configuration and goes on with it, given how to keep what changes. -/
def withStorage (env : Environment) (config : Configuration)
    (next : {σ : Type} → [SessionStore σ] → [ExecutionLog σ] → (σ → Errand Unit) → σ → Errand Unit) :
    Errand Unit :=
  match config.storage.kind with
  | .memory => next (fun _ => pure ()) (MemoryStore.empty, MemoryLog.empty)
  | .sqlite => do
    let opened ← Errand.orStore (OpenDatabase.ofPath (Place.database env config.storage))
    next (fun db => Errand.orStore (OpenDatabase.keep opened.path db)) opened.db

/-- Writes a configuration to start from. -/
def writeStarter (path : String) (force : Bool) : Errand Unit := do
  match Path.parent? path with
  | none | some "" => pure ()
  | some folder => Errand.orShell (ShellCall.ask (.makeFolders folder))
  let found : Except ShellFault String ← Errand.call (.readText path)
  let isThere := match found with
    | .ok _ => true
    | .error fault => !fault.meansAbsent
  if isThere && !force then
    Errand.printLines ["Config already exists at: " ++ path,
      "Edit it manually or re-run with --force to overwrite."]
  else
    Errand.orShell (ShellCall.ask (.writeText path Configuration.starterText))
    Errand.printLines ["Created " ++ path, "", "Next steps:",
      "  1. Review the sample \"weather-bot\" agent in the config",
      "  2. Write a replay script for the model, then run:",
      "     parley chat --agent weather-bot --script <script.json> \"Weather in Paris?\""]

/-- Lists the agents. -/
def listAgents (config : Configuration) : Errand Unit :=
  match config.toAgents with
  | [] => Errand.printLines ["No agents configured. Run `parley init` to create a sample agent."]
  | listed => Errand.printLines (listed.flatMap Listing.agent)

/-- Lists the sessions of one agent or of all. -/
def listSessions {σ : Type} [SessionStore σ] (store : σ) (agent : Option String) : Errand Unit := do
  let now : Instant ← Errand.call .readClock
  match ← Errand.ofStore (SessionStore.sessions now agent store) with
  | [] => Errand.printLines ["No sessions."]
  | listed => Errand.printLines (listed.map Listing.session)

/-- Prints the last messages of a session. -/
def printHistory {σ : Type} [SessionStore σ] (store : σ) (session : SessionId) (limit : Nat) :
    Errand Unit := do
  let now : Instant ← Errand.call .readClock
  match ← Errand.ofStore (SessionStore.session? now session store) with
  | none => throw (.noSession session)
  | some _ =>
    let messages ← Errand.ofStore (SessionStore.recentHistory now session limit store)
    Errand.printLines (messages.flatMap Listing.message)

/-- Carries out a command. -/
def perform (env : Environment) (path : String) : Command → Errand Unit
  | .start force => writeStarter path force
  | .agents => do listAgents (← configuration env path)
  | .chat options => do
    let config ← configuration env path
    withStorage env config fun keep store => Chat.send config keep store options
  | .sessions agent => do
    withStorage env (← configuration env path) fun _ store => listSessions store agent
  | .history session limit => do
    withStorage env (← configuration env path) fun _ store => printHistory store session limit

end Command

/-- Does what is asked for, and reports a failure. -/
def Invocation.run (env : Environment) (invocation : Invocation) : ShellProgram Exit := do
  let printAll (lines : List String) : ShellProgram Exit := do
    let _ ← (Errand.printLines lines).run
    pure .fine
  match invocation with
  | .command path asked =>
    match ← (asked.perform env path).run with
    | .ok () => pure .fine
    | .error failure =>
      let _ ← ShellCall.ask (.printError ("Error: " ++ failure.report ++ "\n"))
      pure (.failed failure)
  | .stopped .version => printAll [Command.versionText]
  | .stopped .help => printAll Command.usage
  | .stopped .refused =>
    let _ ← ShellCall.ask (.printError "error: invalid arguments; try '--help'\n")
    pure .refused

end Colloquy
