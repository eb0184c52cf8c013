import LayeredLedger.Decimal.Basic
import LayeredLedger.Text.Digits

/-!
# Numerals

The written form of decimals. Printing shows every place of the scale. Reading takes an optional
sign, digits with at most one point, and underscores after the first digit; a fraction that has
more places than fit is cut there and rounded half up. A short number is cut without rounding if
an underscore follows its last place. A numeral may end in an exponent of at most 28 either way.
Zero is read without its sign, but a number that an exponent makes too small for its places keeps
the sign.

* `Decimal.toChars`, `Decimal.toText`: printing;
* `Reading`, `shortBound`, `readDigits`, `readPlain`: the numeral without an exponent;
* `readExponent`, `shiftDown`, `shiftUp`, `readScientific`: the exponent;
* `Decimal.parse?`: reading.
-/

namespace LayeredLedger

namespace Decimal

/-! ## Printing -/

/-- The numeral of a decimal: sign, whole part, and as many places as the scale says. -/
def toChars (a : Decimal) : List Char :=
  (if a.minus then ['-'] else []) ++ Text.withPoint (Nat.toDigits 10 a.mantissa) a.scale

/-- The numeral of a decimal, as a text. -/
def toText (a : Decimal) : String := String.ofList a.toChars

instance : ToString Decimal := ⟨toText⟩

end Decimal

/-! ## Reading -/

/-- What is known of a numeral after some of its characters. -/
structure Reading where
  /-- The digits so far, as one number. -/
  mantissa : Nat
  /-- How many of them stand after the point. -/
  scale : Nat
  /-- A point has been read. -/
  point : Bool
  /-- A digit has been read. -/
  digit : Bool

/-- Ends a fraction before digit `d`: the digit rounds half up, and a mantissa that grows out of
range gives up its last place. -/
def roundAt (mantissa scale d : Nat) : Option (Nat × Nat) :=
  if d < 5 then some (mantissa, scale)
  else if mantissa + 1 < mantissaBound then some (mantissa + 1, scale)
  else if scale = 0 then none
  else some ((mantissa + 1 + 4) / 10, scale - 1)

/-- The bound of the mantissas that are short: one that is below it takes another digit within
64 bits, with a margin of eight bits. -/
def shortBound : Nat := (2 ^ 64 - 1) / 10 - (2 ^ 8 - 1)

/-- The number is short up to its last digit, which has the last place. -/
def Reading.isShortAtEnd (r : Reading) : Bool :=
  r.point && r.scale == maxScale && r.mantissa / 10 < shortBound

/-- Only digits and underscores follow, as they may where a fraction is cut. -/
def isCutOff (rest : List Char) : Bool := rest.all fun c => c.isDigit || c == '_'

/-- Reads the digits of a numeral into a mantissa and a scale. -/
def readDigits (r : Reading) : List Char → Option (Nat × Nat)
  | [] => if r.digit then some (r.mantissa, r.scale) else none
  | c :: rest =>
    if c.isDigit then
      let mantissa := 10 * r.mantissa + Text.digitValue c
      if r.point then
        if r.scale = maxScale ∨ mantissaBound ≤ mantissa then
          if isCutOff rest then roundAt r.mantissa r.scale (Text.digitValue c) else none
        else readDigits ⟨mantissa, r.scale + 1, true, true⟩ rest
      else if mantissaBound ≤ mantissa then none
      else readDigits ⟨mantissa, 0, false, true⟩ rest
    else if c = '.' then
      if r.point then none else readDigits { r with point := true } rest
    else if c = '_' then
      if !r.digit then none
      else if r.isShortAtEnd then if isCutOff rest then some (r.mantissa, r.scale) else none
      else readDigits r rest
    else none

/-- Reads a numeral without an exponent. -/
def readPlain (s : List Char) : Option Decimal := do
  let (minus, rest) := Text.takeSign s
  let (mantissa, scale) ← readDigits ⟨0, 0, false, false⟩ rest
  Decimal.ofCoefficient? (if minus then -(mantissa : Int) else mantissa) scale

/-- The number nearest to `n / d`, a half going up. -/
def divHalfUp (n d : Nat) : Nat := (2 * n + d) / (2 * d)

/-- The number divided by `10 ^ n`. Places beyond the last are rounded away. -/
def shiftDown (a : Decimal) (n : Nat) : Option Decimal :=
  if a.scale + n ≤ maxScale then Decimal.ofParts? a.minus a.mantissa (a.scale + n)
  else
    let mantissa := divHalfUp a.mantissa (10 ^ (a.scale + n - maxScale))
    Decimal.ofParts? a.minus mantissa maxScale

/-- The number times `10 ^ n`, with no more places than it needs. -/
def shiftUp (a : Decimal) (n : Nat) : Option Decimal :=
  if n ≤ a.scale then Decimal.ofParts? a.minus a.mantissa (a.scale - n)
  else Decimal.ofParts? a.minus (a.mantissa * 10 ^ (n - a.scale)) 0

/-- Reads an exponent of at most 28: first a minus sign or none, then a plus sign or none, then
digits. The result says whether there is a minus. -/
def readExponent (s : List Char) : Option (Bool × Nat) := do
  let (minus, rest) := Text.takeMinus s
  let n ← Text.ofDecimalDigits? (Text.dropPlus rest)
  if n ≤ maxScale then some (minus, n) else none

def readScientific (s : List Char) : Option Decimal := do
  let base ← readPlain (s.takeWhile fun c => !Text.isExponentMark c)
  match s.dropWhile fun c => !Text.isExponentMark c with
  | [] => none
  | _ :: exponent =>
    let (minus, n) ← readExponent exponent
    if minus then shiftDown base n else shiftUp base n

def Decimal.parse? (s : String) : Option Decimal :=
  readPlain s.toList <|> readScientific s.toList

end LayeredLedger
