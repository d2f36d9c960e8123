/-!
# Paths

A path is a text of names between slashes. One that starts with a slash leads from the root, any other from
the folder in which one works. Empty names and single dots lead nowhere, and two dots lead one folder up.
-/

namespace Colloquy.Path

/-- A path leads from the root. -/
def isAbsolute (path : String) : Bool :=
  path.startsWith "/"

/-- A path ends in a slash, so that it can only lead to a folder. -/
def endsInSlash (path : String) : Bool :=
  path.endsWith "/"

/-- A name that leads nowhere. -/
def isIdle (name : String) : Bool :=
  name == "" || name == "."

/-- The names of a path. -/
def names (path : String) : List String :=
  (path.splitOn "/").filter fun name => !isIdle name

/-- The folder that a name leads to from a folder. -/
def step (folder : List String) (name : String) : List String :=
  if name == ".." then folder.dropLast else folder ++ [name]

/-- Where a path leads from a folder: the names from the root. -/
def resolve (folder : List String) (path : String) : List String :=
  (names path).foldl step (if isAbsolute path then [] else folder)

/-- Names without the idle ones behind the last that is not. -/
def trimmed (parts : List String) : List String :=
  (parts.reverse.dropWhile isIdle).reverse

/-- The names of a path as written, idle ones included up to the last that counts. A dot at the start of a
path that does not lead from the root counts. -/
def written (path : String) : List String :=
  match path.splitOn "/" with
  | "." :: rest => "." :: trimmed rest
  | parts => trimmed parts

/-- The path of the folder that a path lies in, as it is written there; the root and the empty path lie in
none. -/
def parent? (path : String) : Option String :=
  let (root, parts) := if isAbsolute path then ("/", trimmed (path.splitOn "/").tail)
    else ("", written path)
  if parts.isEmpty then none
  else
    let above := "/".intercalate parts.dropLast
    let shown := if isAbsolute path then trimmed (above.splitOn "/") else written above
    some (root ++ "/".intercalate shown)

end Colloquy.Path
