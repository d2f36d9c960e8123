import Colloquy.Configuration.Loading

/-!
# Places of files

Where the configuration and the database are looked for: in a folder of the user's home, unless the
configuration names another place.
-/

namespace Colloquy.Place

/-- The path of a name below a folder. -/
def join (folder name : String) : String :=
  if folder.isEmpty || folder.endsWith "/" then folder ++ name else folder ++ "/" ++ name

/-- The home of the user. -/
def home (env : Environment) : String :=
  (env "HOME").getD "/tmp"

/-- The folder of the program. -/
def folder (env : Environment) : String :=
  join (home env) ".parley"

/-- The configuration file. -/
def configuration (env : Environment) : String :=
  join (folder env) "config.toml"

/-- The file of the database. -/
def database (env : Environment) (storage : StorageDefinition) : String :=
  storage.path.getD (join (folder env) "sessions.sqlite")

end Colloquy.Place
