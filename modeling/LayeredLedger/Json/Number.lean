import LayeredLedger.Binary64.Quick

/-!
# Numbers of JSON

A whole number of 64 bits is exact. Any other number is read quickly into binary floating point.

* `JsonNumber`, `JsonNumber.read?`: the parts of a number;
* `JsonNumber.isExact`, `JsonNumber.value`: exact numbers, and the others;
* `JsonNumber.toDecimal?`: the amount that a number stands for.
-/

namespace LayeredLedger

/-- The parts of a number: `± digits · 10 ^ exponent`. -/
structure JsonNumber where
  minus : Bool
  digits : Nat
  exponent : Int
  /-- It has neither a point nor an exponent. -/
  isWhole : Bool
deriving DecidableEq

namespace JsonNumber

def readPower? (s : List Char) : Option Int := do
  let (minus, digits) := Text.takeSign s
  let n ← Text.ofDecimalDigits? digits
  return if minus then -n else n

/-- Reads a number: a minus sign or none, digits without zeros in front, and perhaps a fraction
and an exponent. -/
def read? (s : List Char) : Option JsonNumber := do
  let (minus, body) := Text.takeMinus s
  let (mantissa, power) := body.span fun c => !Text.isExponentMark c
  let (whole, fraction) := mantissa.span (· != '.')
  let places := fraction.drop 1
  if whole.isEmpty || (whole.length != 1 && whole.head? == some '0') then none
  else if places.isEmpty && !fraction.isEmpty then none
  else do
    let digits ← Text.ofDecimalDigits? (whole ++ places)
    let power? ← power.tail?.elim (some none) fun s => (readPower? s).map some
    return ⟨minus, digits, power?.getD 0 - places.length, fraction.isEmpty && power?.isNone⟩

/-- The number is exact: whole, of 64 bits, and not the negative zero. -/
def isExact (n : JsonNumber) : Bool :=
  n.isWhole && if n.minus then 0 < n.digits && n.digits ≤ 2 ^ 63 else n.digits < 2 ^ 64

/-- The number in binary floating point. -/
def value (n : JsonNumber) : Binary64 := .quick n.minus n.digits n.exponent

/-- The amount that a number stands for. -/
def toDecimal? (n : JsonNumber) : Option Decimal :=
  if n.isExact then Decimal.ofCoefficient? (if n.minus then -(n.digits : Int) else n.digits) 0
  else n.value.toDecimal?

end JsonNumber

end LayeredLedger
