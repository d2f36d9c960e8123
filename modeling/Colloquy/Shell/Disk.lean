import Colloquy.Shell
import Colloquy.Shell.Path

/-!
# A disk in memory

Files and folders as a value, and the shell around it: with instants that are a second apart and names that
are numbers.
-/

namespace Colloquy

/-- What there may be on a disk. -/
inductive DiskEntry where
  /-- A folder. -/
  | folder
  /-- A file with a text. -/
  | file (content : String)
  deriving DecidableEq, Repr

/-- A disk. -/
structure Disk where
  /-- The folder in which one works. -/
  folder : List String
  /-- What there is, each thing under the names that lead to it from the root. -/
  entries : List (List String × DiskEntry)
  deriving DecidableEq, Repr

namespace Disk

/-- The names of a place and of all that it lies in, the root left out. -/
def onTheWay : List String → List (List String)
  | [] => []
  | name :: rest => [name] :: (onTheWay rest).map (name :: ·)

/-- A disk with nothing but the folder in which one works and those that it lies in. -/
def empty (folder : List String) : Disk :=
  ⟨folder, (onTheWay folder).map (·, .folder)⟩

/-- What some names lead to from a folder. -/
def walk (disk : Disk) (folder : List String) : List String → Except ShellFault DiskEntry
  | [] => .ok .folder
  | name :: rest =>
    match disk.entries.lookup (folder ++ [name]) with
    | none => .error .missing
    | some .folder => walk disk (folder ++ [name]) rest
    | some (.file content) => if rest.isEmpty then .ok (.file content) else .error .notFolder

/-- What names lead to from the root. -/
def find (disk : Disk) (names : List String) : Except ShellFault DiskEntry :=
  disk.walk [] names

/-- What a path leads to. -/
def lookup (disk : Disk) (path : String) : Except ShellFault DiskEntry := do
  match ← disk.find (Path.resolve disk.folder path) with
  | .folder => pure .folder
  | .file content => if Path.endsInSlash path then throw .notFolder else pure (.file content)

/-- Puts something in a place. -/
def put (disk : Disk) (names : List String) (entry : DiskEntry) : Disk :=
  { disk with entries := disk.entries.filter (·.1 != names) ++ [(names, entry)] }

/-- Reads a file. -/
def readText (disk : Disk) (path : String) : Except ShellFault String :=
  match disk.lookup path with
  | .ok (.file content) => .ok content
  | .ok .folder => .error .isFolder
  | .error fault => .error fault

/-- Whether there is a folder. -/
def isFolder (disk : Disk) (path : String) : Bool :=
  match disk.lookup path with
  | .ok .folder => true
  | _ => false

/-- Writes a file. -/
def writeText (disk : Disk) (path content : String) : Except ShellFault Disk := do
  let names := Path.resolve disk.folder path
  match disk.lookup path with
  | .ok .folder => throw .isFolder
  | .ok (.file _) => pure (disk.put names (.file content))
  | .error .missing =>
    let _ ← disk.find names.dropLast
    if Path.endsInSlash path then throw .isFolder
    pure (disk.put names (.file content))
  | .error fault => throw fault

/-- Makes a folder and those that it lies in. -/
def makeFolders (disk : Disk) (path : String) : Except ShellFault Disk :=
  let names := Path.resolve disk.folder path
  match disk.find names with
  | .ok .folder => .ok disk
  | .ok (.file _) => .error .exists
  | .error .missing =>
    let missing := (onTheWay names).filter fun above => (disk.find above).toOption.isNone
    .ok (missing.foldl (fun disk above => disk.put above .folder) disk)
  | .error fault => .error fault

end Disk

/-- A shell around a disk in memory. -/
structure Workbench where
  /-- The disk. -/
  disk : Disk
  /-- The time. -/
  now : Instant
  /-- How many names were made. -/
  names : NameCount
  deriving DecidableEq, Repr

namespace Workbench

/-- The outcome of a change of the disk, which a change that fails leaves as it was. -/
def changed (bench : Workbench) : Except ShellFault Disk → Except ShellFault Unit × Workbench
  | .ok disk => (.ok (), { bench with disk })
  | .error fault => (.error fault, bench)

/-- Answers a call. -/
def host : Program.Host ShellCall ShellCall.Answer Workbench
  | .readText path, bench => some (bench.disk.readText path, bench)
  | .writeText path content, bench => some (bench.changed (bench.disk.writeText path content))
  | .isFolder path, bench => some (bench.disk.isFolder path, bench)
  | .makeFolders path, bench => some (bench.changed (bench.disk.makeFolders path))
  | .print _, bench => some ((), bench)
  | .printError _, bench => some ((), bench)
  | .readClock, bench =>
    some (bench.now, { bench with now := ⟨bench.now.seconds + 1, bench.now.nanos⟩ })
  | .newName use, bench => some (bench.names.next use, { bench with names := bench.names.after use })
  | .waitForever, _ => none

end Workbench

end Colloquy
