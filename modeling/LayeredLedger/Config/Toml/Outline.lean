import LayeredLedger.Config.Toml.Statement

/-!
# The tables of a TOML document

The statements of a document build up a tree of tables. A key is set once, a table is opened by
one header, and what is written between braces or brackets is closed to later statements.

* `TomlNode`, `TableOrigin`;
* `inTable`: a change of the table at the end of a path;
* `assign`, `openTable`, `openItem`: what the statements do;
* `Toml.parse?`: the document as a configuration.
-/

namespace LayeredLedger

/-- How a table came to be. -/
inductive TableOrigin where
  /-- On the way to a table that a header opened. -/
  | implied
  /-- By a header of its own. -/
  | header
  /-- On the way of an assignment, which no header opens afterwards. -/
  | dotted
deriving DecidableEq

/-- A part of a document. -/
inductive TomlNode where
  /-- A value that is closed to later statements. -/
  | closed (value : ConfigValue)
  | table (origin : TableOrigin) (entries : List (String × TomlNode))
  /-- An array of tables: the items before the last, and the last. -/
  | tables (before : List ConfigValue) (last : List (String × TomlNode))

namespace Toml

/-- The entries of a table of a document. -/
abbrev Entries := List (String × TomlNode)

mutual

/-- The value of a part of a document. -/
def nodeValue : TomlNode → ConfigValue
  | .closed value => value
  | .table _ entries => .table (entryValues entries)
  | .tables before last => .array (before ++ [.table (entryValues last)])

def entryValues : List (String × TomlNode) → List (String × ConfigValue)
  | [] => []
  | (key, node) :: rest => (key, nodeValue node) :: entryValues rest

end

/-! ## Statements -/

/-- Changes the table at the end of a path. `enter` says what a table is after the path has led
into it, or that the path may not do so; a table that is not there yet is entered as an implied
one. Of an array of tables the last item is taken. The change learns how its table came to be. -/
def inTable (enter : TableOrigin → Option TableOrigin)
    (change : TableOrigin → Entries → Option Entries) :
    TableOrigin → List String → Entries → Option Entries
  | origin, [], entries => change origin entries
  | _, key :: path, entries =>
    match (entries.lookup key).getD (.table .implied []) with
    | .table origin inner => do
      let origin ← enter origin
      let inner ← inTable enter change origin path inner
      return putEntry key (.table origin inner) entries
    | .tables before last => do
      let last ← inTable enter change .header path last
      return putEntry key (.tables before last) entries
    | .closed _ => none

/-- Changes the table to which the last header leads. -/
def underHeader (path : List String) (change : Entries → Option Entries) :
    Entries → Option Entries :=
  inTable some (fun _ => change) .header path

/-- What a table is after the path of an assignment has led into it. An implied table becomes one
of assignments, and a table with a header of its own may not be entered. -/
def assignedOrigin? : TableOrigin → Option TableOrigin
  | .implied => some .dotted
  | .dotted => some .dotted
  | .header => none

/-- Sets a key that is not set yet. -/
def setNew (key : String) (node : TomlNode) (entries : Entries) : Option Entries :=
  if (entries.lookup key).isSome then none else some (putEntry key node entries)

/-- Sets a path of keys from a table on. An item of an array of tables does not get the last
key of a path that leads to it. -/
def assign (path : List String) (value : ConfigValue) (entries : Entries) : Option Entries := do
  let key ← path.getLast?
  let change (origin : TableOrigin) (inner : Entries) : Option Entries :=
    if origin = .dotted then setNew key (.closed value) inner else none
  inTable assignedOrigin? change .dotted path.dropLast entries

def openTableAt (key : String) (entries : Entries) : Option Entries :=
  match entries.lookup key with
  | none => some (putEntry key (.table .header []) entries)
  | some (.table .implied inner) => some (putEntry key (.table .header inner) entries)
  | some _ => none

/-- Opens another item of the array of tables under a key. -/
def openItemAt (key : String) (entries : Entries) : Option Entries :=
  match entries.lookup key with
  | none => some (putEntry key (.tables [] []) entries)
  | some (.tables before last) =>
    some (putEntry key (.tables (before ++ [.table (entryValues last)]) []) entries)
  | some _ => none

mutual

/-- The value that is written. A table between braces sets each key once. -/
def valueOf : TomlValue → Option ConfigValue
  | .scalar value => some value
  | .array items => (valuesOf items).map .array
  | .inlineTable entries => (assignAll entries []).map fun entries => .table (entryValues entries)

/-- The values that are written. -/
def valuesOf : List TomlValue → Option (List ConfigValue)
  | [] => some []
  | item :: items => do return (← valueOf item) :: (← valuesOf items)

/-- Sets paths to values one after the other. -/
def assignAll : List (List String × TomlValue) → Entries → Option Entries
  | [], entries => some entries
  | (path, value) :: rest, entries => do
    let value ← valueOf value
    assignAll rest (← assign path value entries)

end

/-- Carries out a statement. The state is the path of the last header and the document so far. -/
def step (state : List String × Entries) (statement : TomlStatement) :
    Option (List String × Entries) :=
  let (current, entries) := state
  match statement with
  | .openTable path => do
    let key ← path.getLast?
    return (path, ← underHeader path.dropLast (openTableAt key) entries)
  | .openItem path => do
    let key ← path.getLast?
    return (path, ← underHeader path.dropLast (openItemAt key) entries)
  | .assign path value => do
    let value ← valueOf value
    return (current, ← underHeader current (assign path value) entries)

def parse? (document : String) : Option ConfigValue := do
  let statements ← readStatements document
  let (_, entries) ← statements.foldlM step ([], [])
  return .table (entryValues entries)

end Toml

end LayeredLedger
