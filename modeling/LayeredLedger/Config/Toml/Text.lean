import LayeredLedger.Config.Path

/-!
# Texts of TOML

The parts of a TOML document that are made of single characters: what stands between other parts,
and the four kinds of strings. A carriage return stands only before a line feed, and the two are
one line end.

* `Reader`, `skipSpaces`, `skipLines`, `skipLineEnd`: spaces, line ends and comments;
* `readBasic`, `readLiteral`, `readLongBasic`, `readLongLiteral`: strings of each kind;
* `readText`: strings of any kind.
-/

namespace LayeredLedger

namespace Toml

/-- What reads a part of a document, and gives the rest. -/
abbrev Reader (α : Type) := List Char → Option (α × List Char)

/-! ## Spaces, lines and comments -/

/-- A character between the parts of a line. -/
def isSpace (c : Char) : Bool := c == ' ' || c == '\t'

/-- A control character that may not be written as it is. -/
def isControl (c : Char) : Bool := (c.toNat < 0x20 && c != '\t') || c.toNat == 0x7F

def skipSpaces (s : List Char) : List Char := s.dropWhile isSpace

/-- Drops spaces, line ends and comments. The flag says that a comment is open. -/
def skipLines (comment : Bool) : List Char → Option (List Char)
  | [] => some []
  | '\n' :: rest => skipLines false rest
  | '\r' :: '\n' :: rest => skipLines false rest
  | c :: rest =>
    if comment then if isControl c then none else skipLines true rest
    else if isSpace c then skipLines false rest
    else if c = '#' then skipLines true rest
    else some (c :: rest)

/-- Drops the rest of a line, in which only a comment may stand. -/
def skipLineEnd (comment : Bool) : List Char → Option (List Char)
  | [] => some []
  | '\n' :: rest => some rest
  | '\r' :: '\n' :: rest => some rest
  | c :: rest =>
    if comment then if isControl c then none else skipLineEnd true rest
    else if isSpace c then skipLineEnd false rest
    else if c = '#' then skipLineEnd true rest
    else none

/-! ## Strings -/

/-- The character of a code point in hexadecimal. -/
def charOfHex? (digits : List Char) : Option Char := do
  let n := Text.positional 16 (← digits.mapM Text.hexValue?)
  if n.isValidChar then some (Char.ofNat n) else none

/-- The character that a letter after a backslash stands for. -/
def escaped? : Char → Option Char
  | 'b' => some '\x08'
  | 'e' => some '\x1b'
  | 't' => some '\t'
  | 'n' => some '\n'
  | 'f' => some '\x0c'
  | 'r' => some '\r'
  | '"' => some '"'
  | '\\' => some '\\'
  | _ => none

/-- Puts a character in front of what a reader found. -/
def push (c : Char) (r : Option (List Char × List Char)) : Option (List Char × List Char) :=
  r.map fun (text, rest) => (c :: text, rest)

/-- Reads a string between quotes, after the first of them. -/
def readBasic : Reader (List Char)
  | [] => none
  | '"' :: rest => some ([], rest)
  | '\\' :: 'x' :: a :: b :: rest => do push (← charOfHex? [a, b]) (readBasic rest)
  | '\\' :: 'u' :: a :: b :: c :: d :: rest => do push (← charOfHex? [a, b, c, d]) (readBasic rest)
  | '\\' :: 'U' :: a :: b :: c :: d :: e :: f :: g :: h :: rest => do
    push (← charOfHex? [a, b, c, d, e, f, g, h]) (readBasic rest)
  | '\\' :: c :: rest => do push (← escaped? c) (readBasic rest)
  | c :: rest => if isControl c then none else push c (readBasic rest)

/-- Reads a string between apostrophes, after the first of them. -/
def readLiteral : Reader (List Char)
  | [] => none
  | '\'' :: rest => some ([], rest)
  | c :: rest => if isControl c then none else push c (readLiteral rest)

/-- The spaces from here on end in a line end. -/
def endsLine (s : List Char) : Bool :=
  match skipSpaces s with
  | '\n' :: _ => true
  | '\r' :: '\n' :: _ => true
  | _ => false

/-- Reads a string of several lines between three quotes, after the first three. The flag says
that the spaces and line ends after a backslash are being dropped. -/
def readLongBasic (dropping : Bool) : Reader (List Char)
  | [] => none
  | '"' :: '"' :: '"' :: '"' :: '"' :: rest => some (['"', '"'], rest)
  | '"' :: '"' :: '"' :: '"' :: rest => some (['"'], rest)
  | '"' :: '"' :: '"' :: rest => some ([], rest)
  | '\\' :: 'x' :: a :: b :: rest => do push (← charOfHex? [a, b]) (readLongBasic false rest)
  | '\\' :: 'u' :: a :: b :: c :: d :: rest => do
    push (← charOfHex? [a, b, c, d]) (readLongBasic false rest)
  | '\\' :: 'U' :: a :: b :: c :: d :: e :: f :: g :: h :: rest => do
    push (← charOfHex? [a, b, c, d, e, f, g, h]) (readLongBasic false rest)
  | '\\' :: c :: rest =>
    if endsLine (c :: rest) then readLongBasic true rest
    else do push (← escaped? c) (readLongBasic false rest)
  | '\r' :: '\n' :: rest =>
    if dropping then readLongBasic true rest else push '\n' (readLongBasic false rest)
  | c :: rest =>
    if dropping && (isSpace c || c == '\n') then readLongBasic true rest
    else if isControl c && c != '\n' then none
    else push c (readLongBasic false rest)

/-- Reads a string of several lines between three apostrophes, after the first three. -/
def readLongLiteral : Reader (List Char)
  | [] => none
  | '\'' :: '\'' :: '\'' :: '\'' :: '\'' :: rest => some (['\'', '\''], rest)
  | '\'' :: '\'' :: '\'' :: '\'' :: rest => some (['\''], rest)
  | '\'' :: '\'' :: '\'' :: rest => some ([], rest)
  | '\r' :: '\n' :: rest => push '\n' (readLongLiteral rest)
  | c :: rest => if isControl c && c != '\n' then none else push c (readLongLiteral rest)

/-- Drops a line end at the start of a string of several lines. -/
def skipFirstLineEnd : List Char → List Char
  | '\n' :: rest => rest
  | '\r' :: '\n' :: rest => rest
  | s => s

/-- Reads a string of any kind, if one starts here. -/
def readText : Reader String := fun s =>
  let found := match s with
    | '"' :: '"' :: '"' :: rest => readLongBasic false (skipFirstLineEnd rest)
    | '\'' :: '\'' :: '\'' :: rest => readLongLiteral (skipFirstLineEnd rest)
    | '"' :: rest => readBasic rest
    | '\'' :: rest => readLiteral rest
    | _ => none
  found.map fun (text, rest) => (String.ofList text, rest)

end Toml

end LayeredLedger
