import Colloquy.Datum

/-!
# Tables of TOML

A document is a table of tables, put together from headers and keys with dots. A table may be built
in one place only: under its header, or by keys with dots of one parent. A table that was only
passed through on the way to another one may still get a header of its own.
-/

namespace Colloquy.Toml

/-- What stands under a key. -/
inductive Node where
  /-- A value. -/
  | value (d : Datum)
  /-- A table. It is `passing` if nothing but a way led through it, and `dotted` if that way was a
  key with dots. -/
  | table (passing dotted : Bool) (entries : List (String × Node))
  /-- The tables of an array, each under a header of its own. -/
  | tables (items : List (List (String × Node)))

/-- The content of a table. -/
abbrev Entries := List (String × Node)

mutual
/-- The tree that a node stands for. -/
def Node.datum : Node → Datum
  | .value d => d
  | .table _ _ entries => .record (entriesData entries)
  | .tables items => .list (itemsData items)
termination_by structural node => node
/-- The members that the content of a table stands for. -/
def entriesData : List (String × Node) → List (Option String × Datum)
  | [] => []
  | (key, node) :: rest => (some key, node.datum) :: entriesData rest
termination_by structural entries => entries
/-- The records that the tables of an array stand for. -/
def itemsData : List (List (String × Node)) → List Datum
  | [] => []
  | entries :: rest => .record (entriesData entries) :: itemsData rest
termination_by structural items => items
end

namespace Entries

/-- The content with another node under a key that it has. -/
def replace (entries : Entries) (key : String) (node : Node) : Entries :=
  entries.map fun entry => if entry.1 == key then (key, node) else entry

/-- The content with one more key. -/
def add (entries : Entries) (key : String) (node : Node) : Entries :=
  entries ++ [(key, node)]

/-- The content without a key. -/
def remove (entries : Entries) (key : String) : Entries :=
  entries.filter fun entry => entry.1 != key

/-- Goes down a path and changes what it finds there by `change`, which is told whether the table was
made by a key with dots. Tables that are not there are made. The way may lead through the last table
of an array, and, if it is a key with dots, through no table that has been built otherwise. -/
def changeAt {α : Type} (dotted : Bool) (change : Bool → Entries → Option (α × Entries)) :
    (path : List String) → (isDotted : Bool) → Entries → Option (α × Entries)
  | [], isDotted, entries => change isDotted entries
  | key :: path, _, entries =>
    match entries.lookup key with
    | none => do
      let (a, inner) ← changeAt dotted change path dotted []
      some (a, entries.add key (.table true dotted inner))
    | some (.value _) => none
    | some (.tables items) =>
      match items.getLast? with
      | none => none
      | some last => do
        let (a, inner) ← changeAt dotted change path false last
        some (a, entries.replace key (.tables (items.dropLast ++ [inner])))
    | some (.table passing isDotted inner) =>
      if dotted && !passing then none
      else do
        let (a, inner) ← changeAt dotted change path isDotted inner
        some (a, entries.replace key (.table passing isDotted inner))

/-- Puts a value under a key. With dots in the key, its parent has to be made by such keys only. -/
def assign (path : List String) (key : String) (d : Datum) (entries : Entries) : Option Entries := do
  let put (isDotted : Bool) (entries : Entries) : Option (Unit × Entries) :=
    if isDotted == path.isEmpty || (entries.lookup key).isSome then none
    else some ((), entries.add key (.value d))
  let ((), entries) ← changeAt true put path false entries
  some entries

end Entries

/-- A header. -/
structure Header where
  /-- Whether it opens one more table of an array. -/
  isItem : Bool
  /-- The way to the parent of the table. -/
  path : List String
  /-- The key of the table in its parent. -/
  key : String
  deriving DecidableEq, Repr

/-- A document that is being read. -/
structure Document where
  /-- All tables but the one that is being read. -/
  root : Entries
  /-- The header of the table that is being read; before the first header it is the root. -/
  header : Option Header
  /-- The content of that table. -/
  current : Entries

namespace Document

/-- The document of which nothing has been read. -/
def empty : Document :=
  ⟨[], none, []⟩

/-- Puts the table that is being read into its place. -/
def close (document : Document) : Option Entries :=
  match document.header with
  | none => some document.current
  | some header => do
    let put (_ : Bool) (entries : Entries) : Option (Unit × Entries) :=
      match header.isItem, entries.lookup header.key with
      | true, none => some ((), entries.add header.key (.tables [document.current]))
      | true, some (.tables items) =>
        some ((), entries.replace header.key (.tables (items ++ [document.current])))
      | false, none => some ((), entries.add header.key (.table false false document.current))
      | _, _ => none
    let ((), root) ← Entries.changeAt false put header.path false document.root
    some root

/-- Starts the table of a header. A table that so far was only passed through is continued. -/
def start (root : Entries) (header : Header) : Option Document := do
  let take (_ : Bool) (entries : Entries) : Option (Entries × Entries) :=
    match header.isItem, entries.lookup header.key with
    | true, none => some ([], entries.add header.key (.tables []))
    | true, some (.tables _) => some ([], entries)
    | false, none => some ([], entries)
    | false, some (.table true false inner) => some (inner, entries.remove header.key)
    | _, _ => none
  let (current, root) ← Entries.changeAt false take header.path false root
  some ⟨root, some header, current⟩

/-- The document behind a header. -/
def open? (document : Document) (header : Header) : Option Document := do
  start (← document.close) header

/-- The document behind a key and its value. -/
def assign? (document : Document) (path : List String) (key : String) (d : Datum) :
    Option Document := do
  some { document with current := ← Entries.assign path key d document.current }

/-- The tree of the complete document. -/
def datum? (document : Document) : Option Datum := do
  some (.record (entriesData (← document.close)))

end Document

end Colloquy.Toml
