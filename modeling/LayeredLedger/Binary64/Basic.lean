import LayeredLedger.Decimal.Numeral

/-!
# Numbers of binary floating point

The numbers of 64 bits: not a number, the two infinities, and `± mantissa · 2 ^ exponent` with at
most 53 bits in the mantissa. A numeral stands for the nearest of them, a half going to the even
mantissa. A number is written with the fewest digits that stand for it, and of these the nearest.

* `Binary64`, `Binary64.ofRatio`, `Binary64.ofDigits`: the nearest number;
* `Binary64.shortest`, `Binary64.toChars`, `Binary64.toText`: the written form;
* `Binary64.isZero`, `Binary64.round?`, `Binary64.toDecimal?`: conversions.
-/

namespace LayeredLedger

/-- A number of 64 bits. -/
inductive Binary64 where
  | nan
  | infinite (minus : Bool)
  /-- The number `± mantissa · 2 ^ exponent`. -/
  | finite (minus : Bool) (mantissa : Nat) (exponent : Int)
deriving DecidableEq

namespace Binary64

/-- The bound of the mantissas, not reached by any. -/
def mantissaBound : Nat := 2 ^ 53

def leastExponent : Int := -1074

def largestExponent : Int := 971

def zero (minus : Bool) : Binary64 := finite minus 0 leastExponent

/-! ## The nearest number -/

/-- The exponent at which the quotient of two numbers above zero has 53 bits, or the least one. -/
def exponentOf (n d : Nat) : Int :=
  let guess : Int := n.log2 - d.log2
  let top := if n * 2 ^ (-guess).toNat < d * 2 ^ guess.toNat then guess - 1 else guess
  max leastExponent (top - 52)

/-- The number nearest to the quotient of two numbers. -/
def ofRatio (minus : Bool) (n d : Nat) : Binary64 :=
  if n = 0 then zero minus
  else
    let exponent := exponentOf n d
    let mantissa :=
      (divHalfEven (n * 2 ^ (-exponent).toNat : Nat) (d * 2 ^ exponent.toNat)).toNat
    let (mantissa, exponent) :=
      if mantissa = mantissaBound then (mantissa / 2, exponent + 1) else (mantissa, exponent)
    if largestExponent < exponent then infinite minus else finite minus mantissa exponent

/-- A power of ten that is larger than every finite number, and whose inverse rounds to zero. -/
def decimalRange : Nat := 400

/-- The number nearest to `digits · 10 ^ exponent`. -/
def ofDigits (minus : Bool) (digits : Nat) (exponent : Int) : Binary64 :=
  if digits = 0 ∨ exponent + digits.log2 + 1 < -decimalRange then zero minus
  else if (decimalRange : Int) < exponent then infinite minus
  else ofRatio minus (digits * 10 ^ exponent.toNat) (10 ^ (-exponent).toNat)

/-! ## The written form -/

/-- The digits on the grid of `10 ^ place` that stand for `mantissa · 2 ^ exponent`, the nearest
ones if there are several. The bounds between which a number stands for this one are counted in
quarters of the last bit; they belong to it when the mantissa is even. -/
def onGrid? (mantissa : Nat) (exponent : Int) (place : Int) : Option Nat :=
  let quarter := 2 ^ exponent.toNat * 10 ^ (-place).toNat
  let step := 4 * (10 ^ place.toNat * 2 ^ (-exponent).toNat)
  let value := 4 * mantissa * quarter
  let below := if 2 * mantissa = mantissaBound ∧ leastExponent < exponent then 1 else 2
  let low := value - below * quarter
  let high := value + 2 * quarter
  let nearest := divHalfUp value step
  let other := if nearest * step ≤ value then nearest + 1 else nearest - 1
  [nearest, other].find? fun digits =>
    (low < digits * step && digits * step < high)
      || (mantissa % 2 == 0 && (digits * step == low || digits * step == high))

/-- The fewest digits that stand for `mantissa · 2 ^ exponent`, as one number, and the place of
the last of them. -/
def shortest (mantissa : Nat) (exponent : Int) : Nat × Int :=
  let places := (List.range (2 * decimalRange)).map fun (i : Nat) => (decimalRange : Int) - i
  (places.findSome? fun place => (onGrid? mantissa exponent place).map (·, place)).getD (0, 0)

def toChars : Binary64 → List Char
  | nan => "NaN".toList
  | infinite minus => (if minus then ['-'] else []) ++ "inf".toList
  | finite minus mantissa exponent =>
    let (digits, place) := if mantissa = 0 then (0, 0) else shortest mantissa exponent
    (if minus then ['-'] else [])
      ++ Text.withPoint (Nat.toDigits 10 (digits * 10 ^ place.toNat)) (-place).toNat

/-- The number in decimal digits, as a text. -/
def toText (x : Binary64) : String := String.ofList x.toChars

instance : ToString Binary64 := ⟨toText⟩

/-! ## Conversions -/

def isZero : Binary64 → Bool
  | finite _ mantissa _ => mantissa = 0
  | _ => false

/-- The nearest whole number, a half going up. Below zero and without a number it is zero. -/
def round? : Binary64 → Option Nat
  | nan => some 0
  | infinite minus => if minus then some 0 else none
  | finite minus mantissa exponent =>
    if minus then some 0
    else some (divHalfUp (mantissa * 2 ^ exponent.toNat) (2 ^ (-exponent).toNat))

/-- The decimal that the written form stands for. -/
def toDecimal? (x : Binary64) : Option Decimal := readPlain x.toChars

end Binary64

end LayeredLedger
