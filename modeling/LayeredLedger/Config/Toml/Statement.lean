import LayeredLedger.Config.Toml.Scalar
import LayeredLedger.Text.ByteOrder

/-!
# Statements of TOML

A TOML document is a list of statements: headers that open a table or another item of an array of
tables, and assignments of a value to a path of keys. This module cuts a document into its
statements. A path has at most 80 keys, and values are at most 80 deep in other values.

* `TomlValue`, `TomlStatement`;
* `readKeyPath`: paths of keys;
* `readValue`: values; `readStatements`: the document.
-/

namespace LayeredLedger

/-- A value as it is written. -/
inductive TomlValue where
  | scalar (value : ConfigValue)
  | array (items : List TomlValue)
  /-- A table between braces: values and the paths to which they are assigned. -/
  | inlineTable (entries : List (List String × TomlValue))

/-- A statement. -/
inductive TomlStatement where
  /-- A header that opens a table. -/
  | openTable (path : List String)
  /-- A header that opens another item of an array of tables. -/
  | openItem (path : List String)
  | assign (path : List String) (value : TomlValue)

namespace Toml

/-! ## Keys -/

/-- Reads a key: bare, or a string of one line. -/
def readKey : Reader String
  | '"' :: rest => (readBasic rest).map fun (text, rest) => (String.ofList text, rest)
  | '\'' :: rest => (readLiteral rest).map fun (text, rest) => (String.ofList text, rest)
  | s =>
    let key := s.takeWhile isStepChar
    if key.isEmpty then none else some (String.ofList key, s.dropWhile isStepChar)

/-- The largest number of keys of a path, and of values around a value. -/
def maxDepth : Nat := 80

/-- Reads at most so many keys with points between them. -/
def readKeysFor : Nat → Reader (List String)
  | 0, _ => none
  | keys + 1, s => do
    let (key, rest) ← readKey (skipSpaces s)
    match skipSpaces rest with
    | '.' :: rest => do
      let (path, rest) ← readKeysFor keys rest
      return (key :: path, rest)
    | rest => return ([key], rest)

def readKeyPath : Reader (List String) := readKeysFor maxDepth

/-! ## Values -/

mutual

/-- Reads a value in which others may be so deep. -/
def readValueFor : Nat → Nat → Reader TomlValue
  | 0, _, _ => none
  | fuel + 1, depth, s =>
    match s with
    | '[' :: rest => do
      if depth = 0 then none
      let (items, rest) ← readItemsFor fuel (depth - 1) (← skipLines false rest)
      return (.array items, rest)
    | '\x7b' :: rest => do
      if depth = 0 then none
      let (entries, rest) ← readEntriesFor fuel (depth - 1) (← skipLines false rest)
      return (.inlineTable entries, rest)
    | s =>
      match s.head? with
      | some '"' | some '\'' => (readText s).map fun (text, rest) => (.scalar (.text text), rest)
      | _ => (readScalar s).map fun (value, rest) => (.scalar value, rest)

/-- Reads the items of an array up to its end. A comma may stand after the last. -/
def readItemsFor : Nat → Nat → Reader (List TomlValue)
  | 0, _, _ => none
  | fuel + 1, depth, s =>
    match s with
    | ']' :: rest => some ([], rest)
    | s => do
      let (item, rest) ← readValueFor fuel depth s
      match ← skipLines false rest with
      | ',' :: rest => do
        let (items, rest) ← readItemsFor fuel depth (← skipLines false rest)
        return (item :: items, rest)
      | ']' :: rest => return ([item], rest)
      | _ => none

/-- Reads the entries of a table between braces up to its end. A comma may stand after the
last. -/
def readEntriesFor : Nat → Nat → Reader (List (List String × TomlValue))
  | 0, _, _ => none
  | fuel + 1, depth, s =>
    match s with
    | '\x7d' :: rest => some ([], rest)
    | s => do
      let (path, rest) ← readKeyPath s
      match ← skipLines false rest with
      | '=' :: rest => do
        let (value, rest) ← readValueFor fuel depth (← skipLines false rest)
        match ← skipLines false rest with
        | ',' :: rest => do
          let (entries, rest) ← readEntriesFor fuel depth (← skipLines false rest)
          return ((path, value) :: entries, rest)
        | '\x7d' :: rest => return ([(path, value)], rest)
        | _ => none
      | _ => none

end

def readValue : Reader TomlValue := fun s => readValueFor (s.length + 1) maxDepth s

/-! ## Documents -/

/-- Reads a statement without the end of its line. -/
def readStatement : Reader TomlStatement
  | '[' :: '[' :: rest => do
    let (path, rest) ← readKeyPath rest
    match rest with
    | ']' :: ']' :: rest => return (.openItem path, rest)
    | _ => none
  | '[' :: rest => do
    let (path, rest) ← readKeyPath rest
    match rest with
    | ']' :: rest => return (.openTable path, rest)
    | _ => none
  | s => do
    let (path, rest) ← readKeyPath s
    match rest with
    | '=' :: rest => do
      let (value, rest) ← readValue (skipSpaces rest)
      return (.assign path value, rest)
    | _ => none

/-- Reads statements up to the end of a document. -/
def readStatementsFor : Nat → List Char → Option (List TomlStatement)
  | 0, _ => none
  | fuel + 1, s => do
    match ← skipLines false s with
    | [] => return []
    | s => do
      let (statement, rest) ← readStatement s
      let rest ← skipLineEnd false rest
      let statements ← readStatementsFor fuel rest
      return statement :: statements

def readStatements (document : String) : Option (List TomlStatement) :=
  readStatementsFor (document.length + 1) (Text.dropByteOrderMark document.toList)

end Toml

end LayeredLedger
