/-!
# Arguments

The arguments of a command line are options and words. A long option is a name behind two hyphens, a short one
a letter behind one; letters without a value may share a hyphen. A value stands behind an equals sign, right
behind the letter, or in the next argument, which must not look like an option. Behind a lone pair of hyphens
there are only words. No option may be given twice.
-/

namespace Colloquy

/-- What an option does. -/
inductive OptionKind where
  /-- It is there or not. -/
  | flag
  /-- It has a value, of which some are admitted. -/
  | value (admits : String → Bool)
  /-- It asks for help, whatever else there is. -/
  | help
  /-- It asks for the version, whatever else there is. -/
  | version

/-- An option. -/
structure OptionForm where
  /-- The name. -/
  name : String
  /-- The letter, if it has one. -/
  letter : Option Char
  /-- What it does. -/
  kind : OptionKind

/-- What keeps arguments from being carried out. -/
inductive ArgumentStop where
  /-- They are wrong. -/
  | refused
  /-- They ask for help. -/
  | help
  /-- They ask for the version. -/
  | version
  deriving DecidableEq, Repr

/-- Arguments that were read. -/
structure Arguments where
  /-- The options that were given, each with its value, which is empty for a flag. -/
  options : List (String × String)
  /-- The words. -/
  words : List String
  deriving DecidableEq, Repr

namespace Arguments

/-- No arguments. -/
def empty : Arguments :=
  ⟨[], []⟩

/-- The value of an option, if it was given. -/
def option? (arguments : Arguments) (name : String) : Option String :=
  arguments.options.lookup name

/-- Whether an option was given. -/
def has (arguments : Arguments) (name : String) : Bool :=
  (arguments.option? name).isSome

/-- An argument looks like an option: it starts with a hyphen and is not just one. -/
def looksLikeOption (argument : String) : Bool :=
  argument.startsWith "-" && argument != "-"

/-- Arguments with one more option. -/
def give (form : OptionForm) (value : String) (arguments : Arguments) :
    Except ArgumentStop Arguments :=
  match form.kind with
  | .help => .error .help
  | .version => .error .version
  | .flag =>
    if arguments.has form.name then .error .refused
    else .ok { arguments with options := arguments.options ++ [(form.name, "")] }
  | .value admits =>
    if arguments.has form.name || !admits value then .error .refused
    else .ok { arguments with options := arguments.options ++ [(form.name, value)] }

/-- An option takes a value. -/
def takesValue (form : OptionForm) : Bool :=
  form.kind matches .value _

/-- Reads letters that share a hyphen. The last may be an option whose value is in the next argument. -/
def readLetters (forms : List OptionForm) :
    List Char → Arguments → Except ArgumentStop (Arguments × Option OptionForm)
  | [], arguments => .ok (arguments, none)
  | letter :: rest, arguments => do
    match forms.find? (·.letter == some letter) with
    | none => throw .refused
    | some form =>
      if takesValue form then
        match rest with
        | [] => pure (arguments, some form)
        | '=' :: value => pure (← arguments.give form (String.ofList value), none)
        | value => pure (← arguments.give form (String.ofList value), none)
      else readLetters forms rest (← arguments.give form "")

/-- Reads a name behind two hyphens. The value may be in the next argument. -/
def readName (forms : List OptionForm) (s : List Char) (arguments : Arguments) :
    Except ArgumentStop (Arguments × Option OptionForm) := do
  let name := String.ofList (s.takeWhile (· != '='))
  match forms.find? (·.name == name), s.dropWhile (· != '=') with
  | none, _ => throw .refused
  | some form, '=' :: value =>
    if takesValue form then pure (← arguments.give form (String.ofList value), none)
    else throw .refused
  | some form, _ =>
    if takesValue form then pure (arguments, some form)
    else pure (← arguments.give form "", none)

/-- Reads arguments when an option may be waiting for its value. If `onlyOptions`, the first word ends the
options, and what stands behind it is left as it is. -/
def readFrom (forms : List OptionForm) (onlyOptions : Bool) :
    List String → Option OptionForm → Arguments → Except ArgumentStop Arguments
  | [], none, arguments => .ok arguments
  | [], some _, _ => .error .refused
  | argument :: rest, some form, arguments => do
    if looksLikeOption argument then throw .refused
    readFrom forms onlyOptions rest none (← arguments.give form argument)
  | argument :: rest, none, arguments => do
    if !looksLikeOption argument then
      if onlyOptions then pure { arguments with words := argument :: rest }
      else
        readFrom forms onlyOptions rest none { arguments with words := arguments.words ++ [argument] }
    else
      let (arguments, waiting) ← match argument.toList with
        | ['-', '-'] => pure (arguments, none)
        | '-' :: '-' :: name => readName forms name arguments
        | letters => readLetters forms (letters.drop 1) arguments
      if argument == "--" then
        if onlyOptions then throw .refused
        else pure { arguments with words := arguments.words ++ rest }
      else readFrom forms onlyOptions rest waiting arguments

/-- Reads arguments. -/
def read (forms : List OptionForm) (arguments : List String) : Except ArgumentStop Arguments :=
  readFrom forms false arguments none empty

/-- Reads the options in front of the first word, which has to be there. -/
def readLeading (forms : List OptionForm) (arguments : List String) :
    Except ArgumentStop (Arguments × String × List String) := do
  let leading ← readFrom forms true arguments none empty
  match leading.words with
  | [] => throw .refused
  | word :: rest => pure (leading, word, rest)

end Arguments

end Colloquy
