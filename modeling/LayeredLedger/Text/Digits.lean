/-!
# Digits

Digits as characters and the numbers that they stand for, and the other characters of numerals.

* `digitValue`, `hexValue?`: the value of a digit;
* `positional`: the number of a list of digit values;
* `ofDecimalDigits?`: the number of a text of decimal digits;
* `takeMinus`, `dropPlus`, `takeSign`, `isExponentMark`: signs and exponents;
* `withPoint`: digits with a point among them.
-/

namespace LayeredLedger.Text

def digitValue (c : Char) : Nat := c.toNat - '0'.toNat

/-- The value of a hexadecimal digit of either case. -/
def hexValue? (c : Char) : Option Nat :=
  if c.isDigit then some (digitValue c)
  else if 'a' ≤ c ∧ c ≤ 'f' then some (c.toNat - 'a'.toNat + 10)
  else if 'A' ≤ c ∧ c ≤ 'F' then some (c.toNat - 'A'.toNat + 10)
  else none

/-- The number that digits stand for in a base, the most significant digit first. -/
def positional (base : Nat) (digits : List Nat) : Nat :=
  digits.foldl (fun n d => base * n + d) 0

/-- The number that decimal digits stand for, if there are any and nothing else. -/
def ofDecimalDigits? (s : List Char) : Option Nat :=
  if s.isEmpty || !s.all Char.isDigit then none
  else some (positional 10 (s.map digitValue))

/-- Splits off a minus sign; the result says whether there is one. -/
def takeMinus : List Char → Bool × List Char
  | '-' :: rest => (true, rest)
  | s => (false, s)

def dropPlus : List Char → List Char
  | '+' :: rest => rest
  | s => s

/-- Splits off a sign of either kind; the result says whether it is a minus. -/
def takeSign (s : List Char) : Bool × List Char :=
  match takeMinus s with
  | (true, rest) => (true, rest)
  | (false, rest) => (false, dropPlus rest)

def isExponentMark (c : Char) : Bool := c == 'e' || c == 'E'

/-- Digits with a point that leaves so many of them behind it. Zeros in front see to it that one
stands before the point, and without places there is no point. -/
def withPoint (digits : List Char) (places : Nat) : List Char :=
  let padded := List.replicate (places + 1 - digits.length) '0' ++ digits
  let whole := padded.take (padded.length - places)
  if places = 0 then whole else whole ++ '.' :: padded.drop (padded.length - places)

end LayeredLedger.Text
