import Colloquy.Instant
import Colloquy.Program
import Colloquy.Store.NameUse
import Colloquy.Text.Quoted

/-!
# The shell

What a command finds around it: files and folders under their paths, a terminal with an output and an
output for errors, a clock, and a source of new names. A command is a program that asks the shell for them.
-/

namespace Colloquy

/-- Why the shell could not do something with a path. -/
inductive ShellFault where
  /-- Nothing is there. -/
  | missing
  /-- It may not be used. -/
  | denied
  /-- Something is there already. -/
  | exists
  /-- The path leads through something that is no folder. -/
  | notFolder
  /-- A folder is there. -/
  | isFolder
  /-- What is there is no text. -/
  | notText
  deriving DecidableEq, Repr

namespace ShellFault

/-- The number, the kind and the wording of a fault; one has no number. -/
def parts : ShellFault → Option Nat × String × String
  | .missing => (some 2, "NotFound", "No such file or directory")
  | .denied => (some 13, "PermissionDenied", "Permission denied")
  | .exists => (some 17, "AlreadyExists", "File exists")
  | .notFolder => (some 20, "NotADirectory", "Not a directory")
  | .isFolder => (some 21, "IsADirectory", "Is a directory")
  | .notText => (none, "InvalidData", "stream did not contain valid UTF-8")

/-- The wording of a fault. -/
def message (fault : ShellFault) : String :=
  match fault.parts with
  | (some number, _, wording) => wording ++ " (os error " ++ toString number ++ ")"
  | (none, _, wording) => wording

/-- The fault with all its parts. -/
def report (fault : ShellFault) : String :=
  match fault.parts with
  | (some number, kind, wording) =>
    "Os \x7b code: " ++ toString number ++ ", kind: " ++ kind ++ ", message: " ++
      Text.quoted wording ++ " \x7d"
  | (none, kind, wording) =>
    "Error \x7b kind: " ++ kind ++ ", message: " ++ Text.quoted wording ++ " \x7d"

/-- Whether a fault in reading means that nothing is there. -/
def meansAbsent (fault : ShellFault) : Bool :=
  fault == .missing || fault == .notFolder

end ShellFault

/-- What a command may ask of the shell. -/
inductive ShellCall where
  /-- Reads a file. -/
  | readText (path : String)
  /-- Writes a file. -/
  | writeText (path content : String)
  /-- Finds out whether there is a folder. -/
  | isFolder (path : String)
  /-- Makes a folder and those that it lies in, as far as they are missing. -/
  | makeFolders (path : String)
  /-- Prints a text. -/
  | print (s : String)
  /-- Prints a text on the output for errors. -/
  | printError (s : String)
  /-- Reads the clock. -/
  | readClock
  /-- Makes a name that nothing has yet. -/
  | newName (use : NameUse)
  /-- Waits for what never comes. -/
  | waitForever
  deriving DecidableEq, Repr

/-- The answers of the shell. -/
def ShellCall.Answer : ShellCall → Type
  | .readText _ => Except ShellFault String
  | .writeText _ _ => Except ShellFault Unit
  | .isFolder _ => Bool
  | .makeFolders _ => Except ShellFault Unit
  | .print _ => Unit
  | .printError _ => Unit
  | .readClock => Instant
  | .newName _ => String
  | .waitForever => Empty

/-- A program for the shell. -/
abbrev ShellProgram := Program ShellCall ShellCall.Answer

/-- The program of a single call. -/
def ShellCall.ask (call : ShellCall) : ShellProgram call.Answer :=
  Program.query call

/-- All that was printed in a run. -/
def printed (exchanges : List (Program.Exchange ShellCall.Answer)) : String :=
  String.join <| exchanges.filterMap fun
    | ⟨.print s, _⟩ => some s
    | _ => none

/-- All that was printed on the output for errors in a run. -/
def printedErrors (exchanges : List (Program.Exchange ShellCall.Answer)) : String :=
  String.join <| exchanges.filterMap fun
    | ⟨.printError s, _⟩ => some s
    | _ => none

end Colloquy
