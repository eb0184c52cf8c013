import LayeredLedger.Config.Path
import LayeredLedger.Text.Alphanumeric
import LayeredLedger.Text.Blank
import LayeredLedger.Text.ByteOrder

/-!
# Variables of the environment

Variables come with the process, and more of them from a file of assignments, which never
overrides one that is set. A variable whose name starts with the mark of the ledger is a setting:
two underscores part the keys of its path, in letters of either case.

* `Environment`, `Environment.get?`;
* `LineMode`, `cutLines`: the lines of the file, which go on while a quote is open;
* `readAssignment`: a line of the file, with quotes, escapes and references to variables;
* `Environment.withFile`: the variables of a file;
* `smallLetter`, `settingKey?`, `Environment.overlayOn`: variables as settings.
-/

namespace LayeredLedger

/-- The variables and their values. -/
abbrev Environment := List (String × String)

/-- What follows a name and an equals sign in an assignment. -/
def assignedTo? (name : String) (assignment : List Char) : Option String :=
  let start := name.toList ++ ['=']
  if start.isPrefixOf assignment then some (String.ofList (assignment.drop start.length)) else none

/-- The value of a variable. Variables are kept as assignments, so a name with an equals sign in
it reaches into a value. The empty name has no value. -/
def Environment.get? (env : Environment) (name : String) : Option String :=
  if name = "" then none
  else env.findSome? fun (key, value) => assignedTo? name (key.toList ++ '=' :: value.toList)

/-! ## Lines -/

/-- Where in a file of assignments a character stands. -/
inductive LineMode where
  /-- In a word, or at the start of a line. -/
  | word
  /-- Right after the first blank behind a word, the only place there for a comment. -/
  | blank
  /-- After a backslash outside of quotes. -/
  | escape
  /-- Between quotes, and perhaps after a backslash there. -/
  | weak (escaped : Bool)
  /-- Between apostrophes, and perhaps after a backslash there. -/
  | strong (escaped : Bool)
  /-- In a comment. -/
  | comment
deriving DecidableEq

namespace LineMode

/-- Where the next character stands after one outside of quotes. -/
def afterBare (mode : LineMode) (c : Char) : LineMode :=
  if c = '\\' then escape
  else if c = '"' then weak false
  else if c = '\'' then strong false
  else if mode = word ∧ Text.isBlank c ∧ c ≠ '\n' ∧ c ≠ '\r' then blank
  else word

/-- Where the next character stands. -/
def after (c : Char) : LineMode → LineMode
  | word => afterBare word c
  | blank => afterBare blank c
  | escape => word
  | weak escaped =>
    if escaped then weak false else if c = '"' then word else weak (c = '\\')
  | strong escaped =>
    if escaped then strong false else if c = '\'' then word else strong (c = '\\')
  | comment => comment

end LineMode

/-- Cuts a file into lines without comments. A line goes on while a quote is open, and `none`
stands for a last line without an end. `line` is what is read of a line, the last character
first. -/
def cutLines (mode : LineMode) (line : List Char) : List Char → List (Option (List Char))
  | [] =>
    if mode = .comment ∨ mode = .word ∧ ¬line.isEmpty then [some line.reverse]
    else if mode = .word then []
    else [none]
  | c :: rest =>
    if mode = .comment then
      if c = '\n' then some line.reverse :: cutLines .word [] rest else cutLines mode line rest
    else if c = '#' ∧ (mode = .blank ∨ line.all Text.isBlank) then cutLines .comment line rest
    else if c = '\n' ∧ mode.after c = .word then some line.reverse :: cutLines .word [] rest
    else cutLines (mode.after c) (c :: line) rest

/-! ## Assignments -/

/-- What the reading of a value stands in. -/
inductive QuoteMode where
  /-- Outside of quotes. -/
  | bare
  /-- Between apostrophes, where every character stands for itself. -/
  | strong
  /-- Between quotes. -/
  | weak
  /-- After the value, where only spaces and a comment may stand. -/
  | done
deriving DecidableEq

/-- Whether the name of a variable is being read. -/
inductive ReferenceMode where
  | none
  /-- After a dollar sign. -/
  | plain
  /-- After a dollar sign and a brace. -/
  | braced
deriving DecidableEq

/-- The state of the reading of a value. -/
structure ValueState where
  quote : QuoteMode
  escaped : Bool
  reference : ReferenceMode
  /-- The name of the variable that is being read. -/
  name : List Char
  output : List Char

namespace ValueState

/-- Nothing is read yet. -/
def start : ValueState := ⟨.bare, false, .none, [], []⟩

def emit (s : ValueState) (cs : List Char) : ValueState := { s with output := s.output ++ cs }

/-- Puts out the value of the variable whose name was read. -/
def resolve (env : Environment) (s : ValueState) : ValueState :=
  let value := (env.get? (String.ofList s.name)).getD ""
  { s.emit value.toList with name := [], reference := .none }

def unescape (s : ValueState) (c : Char) : Option ValueState :=
  if c ∈ ['\\', '\'', '"', '$', ' '] then some { s.emit [c] with escaped := false }
  else if c = 'n' then some { s.emit ['\n'] with escaped := false }
  else none

/-- Reads a character of the name of a variable, or the one after it. -/
def inReference (env : Environment) (s : ValueState) (c : Char) : ValueState :=
  if Text.isAlphanumeric c then { s with name := s.name ++ [c] }
  else if s.reference = .braced then
    if c = '\x7d' then s.resolve env else { s with name := s.name ++ [c] }
  else if c = '\x7b' ∧ s.name = [] then { s with reference := .braced }
  else if c = '$' then { s.resolve env with reference := .plain }
  else (s.resolve env).emit [c]

/-- Reads a character outside of quotes. -/
def inBare (s : ValueState) (c : Char) : ValueState :=
  if c = '\'' then { s with quote := .strong }
  else if c = '"' then { s with quote := .weak }
  else if c = '\\' then { s with escaped := true }
  else if c = ' ' ∨ c = '\t' then { s with quote := .done }
  else s.emit [c]

/-- Reads a character between quotes. -/
def inWeak (s : ValueState) (c : Char) : ValueState :=
  if c = '"' then { s with quote := .bare }
  else if c = '\\' then { s with escaped := true }
  else s.emit [c]

/-- Reads a value to the end of its line. -/
def read (env : Environment) (s : ValueState) : List Char → Option (List Char)
  | [] =>
    if s.reference = .braced ∨ s.quote = .strong ∨ s.quote = .weak then none
    else some (if s.reference = .plain then (s.resolve env).output else s.output)
  | c :: rest =>
    if s.quote = .done then
      if c = ' ' ∨ c = '\t' then read env s rest
      else if c = '#' then read env s []
      else none
    else if s.escaped then do read env (← s.unescape c) rest
    else if s.quote = .strong then
      read env (if c = '\'' then { s with quote := .bare } else s.emit [c]) rest
    else if s.reference ≠ .none then read env (s.inReference env c) rest
    else if c = '$' then read env { s with reference := .plain } rest
    else if s.quote = .weak then read env (s.inWeak c) rest
    else read env (s.inBare c) rest

end ValueState

/-- A character of the name of a variable. -/
def isNameChar (c : Char) : Bool := c.isAlphanum || c == '_' || c == '.'

def readName (s : List Char) : Option (String × List Char) :=
  match s with
  | c :: _ =>
    if c.isAlpha || c == '_' then
      some (String.ofList (s.takeWhile isNameChar), (s.dropWhile isNameChar).dropWhile Text.isBlank)
    else none
  | [] => none

/-- Reads what follows the name of a variable. -/
def readAssigned (env : Environment) (name : String) : List Char → Option (String × String)
  | '=' :: rest =>
    match rest.dropWhile Text.isBlank with
    | [] => some (name, "")
    | '#' :: _ => some (name, "")
    | value => (ValueState.start.read env value).map fun value => (name, String.ofList value)
  | _ => none

/-- Reads a line: an assignment, or nothing on an empty line. -/
def readAssignment (env : Environment) (line : List Char) :
    Option (Option (String × String)) :=
  match Text.trimChars line with
  | [] => some none
  | line => do
    let (name, rest) ← readName line
    if name = "export" ∧ rest.head? ≠ some '=' then
      let (name, rest) ← readName rest
      some (← readAssigned env name rest)
    else some (← readAssigned env name rest)

/-- Takes over the variables of lines that are not set yet, up to the first line that cannot be
read. -/
def Environment.withLines (env : Environment) : List (Option (List Char)) → Environment
  | [] => env
  | line :: rest =>
    match line.bind (readAssignment env) with
    | none => env
    | some none => env.withLines rest
    | some (some (name, value)) =>
      if (env.get? name).isSome then env.withLines rest
      else Environment.withLines (env ++ [(name, value)]) rest

def Environment.withFile (env : Environment) (file : String) : Environment :=
  env.withLines (cutLines .word [] (Text.dropByteOrderMark file.toList))

/-! ## Settings -/

/-- How the names of settings start, in small letters. -/
def settingMark : List Char := "strata__".toList

/-- Writes a point for every two underscores. -/
def pointPath : List Char → List Char
  | '_' :: '_' :: rest => '.' :: pointPath rest
  | c :: rest => c :: pointPath rest
  | [] => []

/-- The small letter of ASCII of a character, or the character. The kelvin sign is the only
character outside of ASCII that has one. -/
def smallLetter (c : Char) : Char := if c = '\u212A' then 'k' else c.toLower

/-- The key of the setting that a variable is. -/
def settingKey? (name : String) : Option String :=
  let lower := name.toList.map smallLetter
  if settingMark.isPrefixOf lower then
    some (String.ofList (pointPath (lower.drop settingMark.length)))
  else none

/-- Sets what the variables say. -/
def Environment.overlayOn (env : Environment) (root : ConfigValue) : ConfigValue :=
  env.foldl
    (fun root (name, value) =>
      match settingKey? name with
      | some key => root.set (keyPath key) (.text value)
      | none => root)
    root

end LayeredLedger
