import Colloquy.Shell
import Colloquy.Shell.Path
import Colloquy.Store.DatabaseText
import Colloquy.Store.Location

/-!
# Opening a database

A database is opened at its location, which has to be one where a database is or may be made, and then gets the
tables that are missing. A new file is written at once.
-/

namespace Colloquy

/-- A database that was opened. -/
structure OpenDatabase where
  /-- The database. -/
  db : Database
  /-- The file that it is to be kept in, if any. -/
  path : Option String

/-- A fault of the database, with its number. -/
def databaseFault (number : Nat) (wording : String) : String :=
  "error returned from database: (code: " ++ toString number ++ ") " ++ wording

/-- The database cannot be opened. -/
def cannotOpen (number : Nat) (wording : String) : StoreFault :=
  .storage ("Failed to open SQLite: " ++ databaseFault number wording)

/-- The database has no tables and cannot be given any. -/
def cannotMigrate : StoreFault :=
  .migration ("sessions table: " ++ databaseFault 8 "attempt to write a readonly database")

/-- The layers that a file may be reached through. -/
def knownLayers : List String :=
  ["unix", "unix-none", "unix-dotfile", "unix-excl"]

namespace Location

/-- What cannot be opened for what the location says of it, whatever the files are. -/
def refusal? (location : Location) : Option StoreFault :=
  match location.layer.filter (!knownLayers.contains ·) with
  | some layer => some (cannotOpen 1 ("no such vfs: " ++ layer))
  | none =>
    if location.name.contains '\x00' then
      some (.storage "Failed to open SQLite: error with configuration: nul byte in file name")
    else if location.isFleeting && location.readOnly then some cannotMigrate
    else none

/-- Keeps a database in its file. -/
def keep (path : String) (db : Database) : ShellProgram (Except StoreFault Unit) := do
  let written : Except ShellFault Unit ← ShellCall.ask (.writeText path db.text)
  pure (written.mapError fun fault => .storage (path ++ ": " ++ fault.message))

/-- Opens a database that has no file yet. -/
def openNew (location : Location) : ShellProgram (Except StoreFault OpenDatabase) := do
  let hasFolder : Bool ← match Path.parent? location.name with
    | none | some "" => pure true
    | some folder => ShellCall.ask (.isFolder folder)
  if location.readOnly || !hasFolder || Path.endsInSlash location.name then
    pure (.error (cannotOpen 14 "unable to open database file"))
  else if location.immutable then pure (.error cannotMigrate)
  else do
    let kept ← keep location.name .fresh
    pure (kept.map fun _ => ⟨.fresh, some location.name⟩)

/-- Opens a database in a file with a text. -/
def openText (location : Location) (content : String) : Except StoreFault OpenDatabase := do
  if content.isEmpty && location.readOnly then
    throw (cannotOpen 8 "attempt to write a readonly database")
  if content.isEmpty && location.immutable then throw cannotMigrate
  match Database.ofText? content with
  | none => throw (cannotOpen 26 "file is not a database")
  | some db =>
    let keeps := !location.readOnly && !location.immutable
    pure ⟨db, if keeps then some location.name else none⟩

/-- Opens the database at a location. -/
def openDatabase (location : Location) : ShellProgram (Except StoreFault OpenDatabase) := do
  match location.refusal? with
  | some fault => pure (.error fault)
  | none =>
    if location.isFleeting then pure (.ok ⟨.fresh, none⟩)
    else
      let found : Except ShellFault String ← ShellCall.ask (.readText location.name)
      match found with
      | .ok content => pure (location.openText content)
      | .error fault =>
        if fault.meansAbsent then location.openNew
        else pure (.error (cannotOpen 14 "unable to open database file"))

end Location

namespace OpenDatabase

/-- Opens the database at the location that a text denotes. -/
def ofLocation (s : String) : ShellProgram (Except StoreFault OpenDatabase) :=
  match Location.ofText s with
  | .ok location => location.openDatabase
  | .error fault => pure (.error (.storage ("Invalid SQLite path: " ++ fault.message)))

/-- Opens the database in a file. The folders that the file lies in are made. -/
def ofPath (path : String) : ShellProgram (Except StoreFault OpenDatabase) := do
  let made : Except ShellFault Unit ← match Path.parent? path with
    | none | some "" => pure (.ok ())
    | some folder => ShellCall.ask (.makeFolders folder)
  match made with
  | .error fault =>
    let folder := (Path.parent? path).getD ""
    pure (.error (.storage ("Cannot create " ++ folder ++ ": " ++ fault.message)))
  | .ok () => ofLocation ("sqlite://" ++ path)

/-- Keeps a database, if it is to be kept. -/
def keep (path : Option String) (db : Database) : ShellProgram (Except StoreFault Unit) :=
  match path with
  | none => pure (.ok ())
  | some path => Location.keep path db

end OpenDatabase

end Colloquy
