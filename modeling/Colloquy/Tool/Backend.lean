import Colloquy.Agent

/-!
# Backends

A backend runs the tools of one kind. The backend of native tools is a table of functions, found by
name in any letter case. A registry has at most one backend for each kind: the first that was
registered.
-/

namespace Colloquy

/-- What comes of running a tool. -/
abbrev Reply := Except ToolFault Json

/-- A backend. -/
structure Backend where
  /-- The kind of tools that it runs. -/
  kind : ToolKind
  /-- Runs a tool with parameters; `none` when it never answers. -/
  run : Tool → Json.Members → Option Reply

/-- A native function. -/
structure NativeFunction where
  /-- The name of the function. -/
  name : String
  /-- Calls it with parameters. -/
  call : Json.Members → Reply

/-- The native functions that were registered, no two of them alike in name. -/
structure NativeTable where
  /-- The functions. -/
  functions : List NativeFunction

namespace NativeTable

/-- The table without functions. -/
def empty : NativeTable :=
  ⟨[]⟩

/-- Adds a function in place of the one of a like name. -/
def register (table : NativeTable) (function : NativeFunction) : NativeTable :=
  ⟨table.functions.filter (fun other => !Text.alike other.name function.name) ++ [function]⟩

/-- The table of some functions, registered one after another. -/
def ofList (functions : List NativeFunction) : NativeTable :=
  functions.foldl register empty

/-- The function of a name. -/
def find? (table : NativeTable) (name : String) : Option NativeFunction :=
  table.functions.find? fun function => Text.alike function.name name

/-- The names of the functions as they spell them, sorted. -/
def names (table : NativeTable) : List String :=
  (table.functions.map (·.name)).mergeSort fun s t => decide (s ≤ t)

/-- Runs a tool by the function of its name. -/
def run (table : NativeTable) (tool : Tool) (parameters : Json.Members) : Reply :=
  match table.find? tool.name with
  | none => .error (.notFound tool.name)
  | some function => function.call parameters

/-- The table as a backend. -/
def backend (table : NativeTable) : Backend :=
  ⟨.native, fun tool parameters => some (table.run tool parameters)⟩

end NativeTable

/-- The backends that were registered, no two of one kind. -/
structure Registry where
  /-- The backends. -/
  backends : List Backend

namespace Registry

/-- The registry without backends. -/
def empty : Registry :=
  ⟨[]⟩

/-- The backend of a kind. -/
def find? (registry : Registry) (kind : ToolKind) : Option Backend :=
  registry.backends.find? fun backend => backend.kind == kind

/-- Whether there is a backend for a kind. -/
def serves (registry : Registry) (kind : ToolKind) : Bool :=
  (registry.find? kind).isSome

/-- Adds a backend, unless its kind has one. -/
def register (registry : Registry) (backend : Backend) : Registry :=
  if registry.serves backend.kind then registry else ⟨registry.backends ++ [backend]⟩

/-- The registry of some backends, registered one after another. -/
def ofList (backends : List Backend) : Registry :=
  backends.foldl register empty

/-- The kinds that have a backend, in the order of their names. -/
def kinds (registry : Registry) : List ToolKind :=
  ToolKind.all.filter registry.serves

/-- Runs a tool by the backend of its kind; `none` if there is no backend or it never answers. -/
def run (registry : Registry) (tool : Tool) (parameters : Json.Members) : Option Reply := do
  (← registry.find? tool.kind).run tool parameters

end Registry

end Colloquy
