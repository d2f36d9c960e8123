import Colloquy.Text.Percent
import Colloquy.Text.Quoted

/-!
# Locations of databases

A location is a text: an optional scheme, the name of a file, and parameters behind a question mark that say
how the file is to be opened. A database without a name is a temporary one, and there are databases that are
only in memory.
-/

namespace Colloquy

/-- Where a database is, and how it is to be opened. -/
structure Location where
  /-- The name of the file; none if it is empty. -/
  name : String
  /-- Whether the database is only in memory. -/
  inMemory : Bool
  /-- Whether it is opened only for reading. -/
  readOnly : Bool
  /-- Whether the file is taken never to change. -/
  immutable : Bool
  /-- The layer that the file is reached through, if it is not the usual one. -/
  layer : Option String
  deriving DecidableEq, Repr

/-- Why a text is no location. -/
inductive LocationFault where
  /-- The name of the file is no text. -/
  | notText
  /-- A parameter has a value that it cannot have. -/
  | unknownValue (parameter value : String)
  /-- There is no such parameter. -/
  | unknownParameter (name : String)
  deriving DecidableEq, Repr

/-- The wording of a location fault. -/
def LocationFault.message : LocationFault → String
  | .notText => "error with configuration: invalid utf-8 sequence"
  | .unknownValue parameter value =>
    "error with configuration: unknown value " ++ Text.quoted value ++ " for `" ++ parameter ++ "`"
  | .unknownParameter name =>
    "error with configuration: unknown query parameter `" ++ name ++
      "` while parsing connection URL"

namespace Location

/-- Characters without those at the front that are all of `lead`, as often as they stand there. -/
def withoutLead (lead : List Char) : Nat → List Char → List Char
  | 0, s => s
  | times + 1, s =>
    if lead.isPrefixOf s then withoutLead lead times (s.drop lead.length) else s

/-- The characters of a location without its scheme. -/
def withoutScheme (s : List Char) : List Char :=
  let plain := withoutLead "sqlite://".toList s.length s
  withoutLead "sqlite:".toList plain.length plain

/-- A parameter: its name and its value. -/
def splitParameter (parameter : List Char) : List Char × List Char :=
  (parameter.takeWhile (· != '='), (parameter.dropWhile (· != '=')).drop 1)

/-- The text of a part of a parameter, in which bytes that are no text are replaced. -/
def parameterText (s : List Char) : String :=
  (Text.Percent.decodeForm? (String.ofList s)).getD "\uFFFD"

/-- A location with one more parameter. -/
def withParameter (location : Location) (name value : String) : Except LocationFault Location :=
  match name, value with
  | "mode", "ro" => .ok { location with readOnly := true }
  | "mode", "rw" | "mode", "rwc" => .ok location
  | "mode", "memory" => .ok { location with inMemory := true }
  | "cache", "private" | "cache", "shared" => .ok location
  | "immutable", "true" | "immutable", "1" => .ok { location with immutable := true }
  | "immutable", "false" | "immutable", "0" => .ok { location with immutable := false }
  | "vfs", layer => .ok { location with layer := some layer }
  | name, value =>
    if ["mode", "cache", "immutable"].contains name then .error (.unknownValue name value)
    else .error (.unknownParameter name)

/-- The location without parameters that a name denotes. -/
def ofName (name : List Char) : Except LocationFault Location :=
  if name == ":memory:".toList then .ok ⟨"", true, false, false, none⟩
  else
    match Text.Percent.decode? (String.ofList name) with
    | none => .error .notText
    | some name => .ok ⟨name, false, false, false, none⟩

/-- The location that a text denotes. -/
def ofText (s : String) : Except LocationFault Location := do
  let plain := withoutScheme s.toList
  let location ← ofName (plain.takeWhile (· != '?'))
  let parameters := (plain.dropWhile (· != '?')).drop 1
  let parameters := ((String.ofList parameters).splitOn "&").filter (!·.isEmpty)
  parameters.foldlM (fun location parameter =>
    let (name, value) := splitParameter parameter.toList
    location.withParameter (parameterText name) (parameterText value)) location

/-- A location that no file is kept for. -/
def isFleeting (location : Location) : Bool :=
  location.inMemory || location.name.isEmpty

end Location

end Colloquy
