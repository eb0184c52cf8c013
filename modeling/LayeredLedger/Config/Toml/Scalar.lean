import LayeredLedger.Config.Toml.Text
import LayeredLedger.Power

/-!
# Scalars of TOML

Truth values, integers of 64 bits in four bases, real numbers, dates and times are written
without quotes. Each takes up a whole token, in which underscores stand only between digits.

* `integer?`, `real?`: numbers;
* `skipDate`, `skipTime`, `skipOffset`, `isMoment`: dates and times;
* `scalar?`, `readScalar`: scalars of any kind.
-/

namespace LayeredLedger

namespace Toml

/-! ## Integers -/

/-- The values of digits in a base, if underscores stand only between digits. -/
def digitsIn? (base : Nat) (s : List Char) : Option (List Nat) := do
  let groups := s.splitOn '_'
  if groups.any List.isEmpty then none
  let values ← groups.flatten.mapM Text.hexValue?
  if values.all (· < base) then some values else none

/-- The number of digits in a base. -/
def number? (base : Nat) (s : List Char) : Option Nat :=
  (digitsIn? base s).map (Text.positional base)

/-- The number of decimal digits without zeros in front. -/
def plainNumber? (s : List Char) : Option Nat :=
  if s.length == 1 || s.head? != some '0' then number? 10 s else none

/-- An integer of 64 bits with its sign. -/
def inWord? (n : Int) : Option Int := if -2 ^ 63 ≤ n ∧ n < 2 ^ 63 then some n else none

def integer? (token : List Char) : Option Int := do
  match token with
  | '0' :: 'x' :: digits => inWord? (← number? 16 digits)
  | '0' :: 'o' :: digits => inWord? (← number? 8 digits)
  | '0' :: 'b' :: digits => inWord? (← number? 2 digits)
  | token =>
    let (minus, digits) := Text.takeSign token
    let n ← plainNumber? digits
    inWord? (if minus then -n else n)

/-! ## Real numbers -/

/-- The exponent of a real number, which may have a sign and zeros in front. -/
def exponent? (s : List Char) : Option Int := do
  let (minus, digits) := Text.takeSign s
  let n ← number? 10 digits
  return if minus then -n else n

/-- The real number with these parts, if it has a fraction or an exponent and is not too large. -/
def realOf? (minus : Bool) (whole : List Char) (fraction exponent : Option (List Char)) :
    Option Binary64 := do
  if fraction.isNone && exponent.isNone then none
  let whole ← plainNumber? whole
  let places ← fraction.elim (some []) (digitsIn? 10)
  let shift ← exponent.elim (some 0) exponent?
  let digits := whole * 10 ^ places.length + Text.positional 10 places
  match Binary64.ofDigits minus digits (shift - places.length) with
  | .infinite _ => none
  | x => some x

/-- The real number that a token stands for. -/
def real? (token : List Char) : Option Binary64 :=
  let (minus, body) := Text.takeSign token
  if body = "inf".toList then some (.infinite minus)
  else if body = "nan".toList then some .nan
  else
    let (mantissa, exponent) := body.span fun c => !Text.isExponentMark c
    let (whole, fraction) := mantissa.span (· != '.')
    realOf? minus whole fraction.tail? exponent.tail?

/-! ## Dates and times -/

/-- Reads a number of two digits that is not larger than `last`. -/
def readTwo (last : Nat) : Reader Nat
  | a :: b :: rest => do
    let n ← Text.ofDecimalDigits? [a, b]
    if n ≤ last then some (n, rest) else none
  | _ => none

/-- The year has a 29th of February. -/
def isLeapYear (year : Nat) : Bool := year % 4 == 0 && (year % 100 != 0 || year % 400 == 0)

def daysOfMonth (year month : Nat) : Nat :=
  if month = 2 then if isLeapYear year then 29 else 28
  else if month ∈ [4, 6, 9, 11] then 30
  else 31

def skipDate (s : List Char) : Option (List Char) := do
  let year ← Text.ofDecimalDigits? (s.take 4)
  match s.drop 4 with
  | '-' :: rest => do
    match ← readTwo 12 rest with
    | (month, '-' :: rest) => do
      let (day, rest) ← readTwo (daysOfMonth year month) rest
      if month = 0 ∨ day = 0 then none else some rest
    | _ => none
  | _ => none

def skipFraction : List Char → Option (List Char)
  | '.' :: rest =>
    if (rest.takeWhile Char.isDigit).isEmpty then none else some (rest.dropWhile Char.isDigit)
  | s => some s

/-- Drops a time of day. The seconds can be left out. -/
def skipTime (s : List Char) : Option (List Char) := do
  match ← readTwo 23 s with
  | (_, ':' :: rest) => do
    match ← readTwo 59 rest with
    | (_, ':' :: rest) => do
      let (_, rest) ← readTwo 60 rest
      skipFraction rest
    | (_, rest) => some rest
  | _ => none

/-- Drops the distance to the time of the world, if there is one. -/
def skipOffset : List Char → Option (List Char)
  | [] => some []
  | c :: rest =>
    if c == 'Z' || c == 'z' then some rest
    else if c == '+' || c == '-' then do
      match ← readTwo 23 rest with
      | (_, ':' :: rest) => return (← readTwo 59 rest).2
      | _ => none
    else none

def isDate (token : List Char) : Bool := skipDate token == some []

/-- The token is a date, a time of day, or both with something between them. -/
def isMoment (token : List Char) : Bool :=
  isDate token || skipTime token == some [] ||
    match skipDate token with
    | some (c :: rest) =>
      (c == 'T' || c == 't' || c == ' ') && (skipTime rest).bind skipOffset == some []
    | _ => false

/-! ## Scalars -/

def scalar? (token : List Char) : Option ConfigValue :=
  if token = "true".toList then some (.boolean true)
  else if token = "false".toList then some (.boolean false)
  else if isMoment token then some .other
  else (integer? token).map .integer <|> (real? token).map .real

/-- A character that ends a token. -/
def endsToken (c : Char) : Bool :=
  isSpace c || c == '\n' || c == '\r' || c == ',' || c == ']' || c == '\x7d' || c == '#'

/-- Cuts off a token. After a date one space does not end it if a digit follows. -/
def splitToken (s : List Char) : List Char × List Char :=
  let (token, rest) := s.span fun c => !endsToken c
  match rest with
  | ' ' :: c :: rest =>
    if isDate token && c.isDigit then
      let (time, rest) := (c :: rest).span fun c => !endsToken c
      (token ++ ' ' :: time, rest)
    else (token, ' ' :: c :: rest)
  | rest => (token, rest)

def readScalar : Reader ConfigValue := fun s =>
  let (token, rest) := splitToken s
  (scalar? token).map (·, rest)

end Toml

end LayeredLedger
