import Colloquy.Configuration.Validity
import Colloquy.Toml.Reader
import Colloquy.Word

/-!
# Loading a configuration

A configuration comes from a file, if there is one, and has to be valid as it stands there. Variables
of the environment then take precedence over the file, and the outcome has to be valid again.
-/

namespace Colloquy

/-- What is found in the place of a configuration file. -/
inductive ConfigSource where
  /-- Nothing. -/
  | missing
  /-- Something that cannot be read as text. -/
  | unreadable
  /-- A text. -/
  | text (content : String)
  deriving DecidableEq, Repr

/-- Why there is no configuration. -/
inductive ConfigFault where
  /-- The file cannot be read. -/
  | unreadable
  /-- The file is no configuration. -/
  | malformed
  /-- The configuration breaks a rule. -/
  | invalid (violation : Violation)
  deriving DecidableEq, Repr

/-- The wording of a configuration fault. -/
def ConfigFault.message : ConfigFault → String
  | .unreadable => "Failed to read config file"
  | .malformed => "Failed to parse config file"
  | .invalid violation => "Configuration validation failed: " ++ violation.message

/-- The variables of the environment. -/
abbrev Environment := String → Option String

namespace Configuration

/-- The word of some bits that a text denotes: digits behind an optional plus sign. -/
def wordOf? (bits : Nat) (s : String) : Option Nat :=
  let ds := match s.toList with
    | '+' :: ds => ds
    | ds => ds
  if ds.isEmpty || !ds.all Char.isDigit then none
  else
    let n := Text.Scan.digitsValue ds
    if n < Word.count bits then some n else none

/-- The configuration in a file. -/
def ofSource (source : ConfigSource) : Except ConfigFault Configuration :=
  match source with
  | .missing => .ok .standard
  | .unreadable => .error .unreadable
  | .text content =>
    match Toml.readAs? decode content with
    | none => .error .malformed
    | some config => config.validated.mapError .invalid

/-- The kind of storage under the environment. -/
def storageKindUnder (env : Environment) (kind : StorageKind) : Except Violation StorageKind :=
  match env "PARLEY_STORAGE" with
  | none => .ok kind
  | some name => (StorageKind.ofText? name).mapError .unknownStorage

/-- The greatest depth under the environment. -/
def maxDepthUnder (env : Environment) (maxDepth : UInt32) : Except Violation UInt32 :=
  match env "PARLEY_MAX_DEPTH" with
  | none => .ok maxDepth
  | some value =>
    match wordOf? 32 (Text.trim value) with
    | some n => .ok n.toUInt32
    | none => .error (.depthNotANumber value)

/-- The configuration under the environment. -/
def under (env : Environment) (config : Configuration) : Except Violation Configuration := do
  let path := (env "PARLEY_DB_PATH").or config.storage.path
  let kind ← storageKindUnder env config.storage.kind
  let maxDepth ← maxDepthUnder env config.settings.maxDepth
  pure { config with storage := ⟨kind, path⟩, settings := { config.settings with maxDepth } }

/-- The configuration of a file and the environment. -/
def load (source : ConfigSource) (env : Environment) : Except ConfigFault Configuration := do
  let written ← ofSource source
  let config ← (written.under env).mapError .invalid
  config.validated.mapError .invalid

end Configuration

end Colloquy
