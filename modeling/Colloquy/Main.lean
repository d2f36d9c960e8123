import Colloquy.Command
import Colloquy.Text.Uuid
import Std.Time.DateTime.Timestamp

/-!
# The program

Carries out what the arguments ask for in the shell that it was started from.
-/

namespace Colloquy.Main

/-- The variables of the environment that a command may look at. -/
def variableNames : List String :=
  ["HOME", Invocation.configVariable, Invocation.scriptVariable, "PARLEY_DB_PATH",
    "PARLEY_STORAGE", "PARLEY_MAX_DEPTH"]

/-- The environment as far as commands look at it. -/
def environment : IO Environment := do
  let found ← variableNames.filterMapM fun name => do
    pure ((← IO.getEnv name).map (name, ·))
  pure fun name => found.lookup name

/-- The shell fault with a number of the system, which may come with either sign. -/
def faultOfCode (code : UInt32) : ShellFault :=
  match code.toInt32.toInt.natAbs with
  | 2 => .missing
  | 17 => .exists
  | 20 => .notFolder
  | 21 => .isFolder
  | _ => .denied

/-- What a fault of the system means for the shell. -/
def faultOf : IO.Error → ShellFault
  | .noFileOrDirectory _ code _ | .alreadyExists _ code _ | .inappropriateType _ code _
  | .noSuchThing _ code _ | .otherError code _ | .illegalOperation code _ => faultOfCode code
  | _ => .denied

/-- The outcome of an action of the system. -/
def outcome {α : Type} (action : IO α) : IO (Except ShellFault α) := do
  try
    pure (.ok (← action))
  catch fault => pure (.error (faultOf fault))

/-- Reads a file as text. -/
def readText (path : String) : IO (Except ShellFault String) := do
  let read ← outcome (IO.FS.readBinFile path)
  pure (read.bind fun bytes =>
    match String.fromUTF8? bytes with
    | some s => .ok s
    | none => .error .notText)

/-- The time. -/
def now : IO Instant := do
  let time := (← Std.Time.Timestamp.now).toNanosecondsSinceUnixEpoch.val
  pure ⟨time.fdiv 1000000000, (time.fmod 1000000000).toNat⟩

/-- Answers a call by the system. -/
def respond : (call : ShellCall) → IO call.Answer
  | .readText path => readText path
  | .writeText path content => outcome (IO.FS.writeFile path content)
  | .isFolder path => do
    match ← readText path with
    | .error .isFolder => pure true
    | _ => pure false
  | .makeFolders path => outcome (IO.FS.createDirAll path)
  | .print s => do
    let output ← IO.getStdout
    output.putStr s
    output.flush
  | .printError s => do
    (← IO.getStderr).putStr s
  | .readClock => now
  | .newName _ => do
    pure (Text.Uuid.ofBytes (← IO.getRandomBytes 16).toList)
  | .waitForever => throw (IO.userError "nothing to wait for")

end Colloquy.Main

/-- Runs the program. -/
def main (arguments : List String) : IO UInt32 := do
  let env ← Colloquy.Main.environment
  let invocation := Colloquy.Invocation.ofArguments env arguments
  let exit ← (invocation.run env).runIn Colloquy.Main.respond
  pure exit.code
