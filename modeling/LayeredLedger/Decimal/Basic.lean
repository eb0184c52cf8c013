import LayeredLedger.Power

/-!
# Decimals

A decimal is a sign and a mantissa of at most 96 bits over a power of ten of at most 28. Two
decimals can have the same value: `5` and `5.00` differ in scale, `0` and `-0` in sign, and
comparison goes by value.

A sum is exact whenever it fits. When it does not, the scale is lowered as little as needed and
the value rounded to the nearest, a half to the even neighbour; a sum too large for scale 0 is
an overflow.

* `Decimal`, its exact value `units` in steps of `10⁻²⁸`, the order;
* `divHalfEven`, `Decimal.fit?`: rounding into the range;
* `Decimal.add`, `Decimal.sub`, `Decimal.sum` with the outcome `Overflow`;
* **`Decimal.units_neg`**, `Decimal.units_abs`: sign operations act on the exact value.
-/

namespace LayeredLedger

def maxScale : Nat := 28

/-- The bound of the mantissas, not reached by any. -/
def mantissaBound : Nat := 2 ^ 96

/-- A number `± mantissa / 10 ^ scale`. -/
structure Decimal where
  /-- There is a minus sign, which zero can have too. -/
  minus : Bool
  /-- The digits, as one number. -/
  mantissa : Nat
  /-- How many of the digits stand after the point. -/
  scale : Nat
  mantissa_lt : mantissa < mantissaBound
  scale_le : scale ≤ maxScale
deriving DecidableEq

/-- The operations that can leave the range of decimals. -/
inductive Overflow where
  | addition
  | subtraction
deriving DecidableEq, Repr

/-- The text that reports an overflow. -/
def Overflow.message : Overflow → String
  | addition => "Addition overflowed"
  | subtraction => "Subtraction overflowed"

/-- The integer nearest to `n / d`, a half going to the even neighbour. -/
def divHalfEven (n : Int) (d : Nat) : Int :=
  let q := n / d
  let r := n % d
  if 2 * r < d then q else if d < 2 * r then q + 1 else if q % 2 = 0 then q else q + 1

namespace Decimal

/-- The digits with their sign, as one integer. -/
def coefficient (a : Decimal) : Int := if a.minus then -(a.mantissa : Int) else a.mantissa

/-- The value in steps of `10⁻²⁸`, which every decimal is a multiple of. -/
def units (a : Decimal) : Int := a.coefficient * 10 ^ (maxScale - a.scale)

instance : LT Decimal := ⟨fun a b => a.units < b.units⟩

instance : LE Decimal := ⟨fun a b => a.units ≤ b.units⟩

instance : DecidableLT Decimal := fun a b => inferInstanceAs (Decidable (a.units < b.units))

instance : DecidableLE Decimal := fun a b => inferInstanceAs (Decidable (a.units ≤ b.units))

/-- The two decimals are the same number, whatever their scales. -/
def SameValue (a b : Decimal) : Prop := a.units = b.units

instance (a b : Decimal) : Decidable (a.SameValue b) :=
  inferInstanceAs (Decidable (a.units = b.units))

def zero : Decimal := ⟨false, 0, 0, by decide, by decide⟩

instance : Zero Decimal := ⟨zero⟩

instance : Inhabited Decimal := ⟨0⟩

def one : Decimal := ⟨false, 1, 0, by decide, by decide⟩

def two : Decimal := ⟨false, 2, 0, by decide, by decide⟩

/-- The decimal with these parts, if they are in range. -/
def ofParts? (minus : Bool) (mantissa scale : Nat) : Option Decimal :=
  if h : mantissa < mantissaBound ∧ scale ≤ maxScale then some ⟨minus, mantissa, scale, h.1, h.2⟩
  else none

/-- The decimal with these digits and their sign, if they are in range. Zero gets no minus. -/
def ofCoefficient? (coefficient : Int) (scale : Nat) : Option Decimal :=
  ofParts? (decide (coefficient < 0)) coefficient.natAbs scale

/-! ## Sign -/

def isZero (a : Decimal) : Bool := a.mantissa = 0

def isNegative (a : Decimal) : Bool := a.minus && !a.isZero

/-- The same digits with the other sign. -/
def neg (a : Decimal) : Decimal := { a with minus := !a.minus }

instance : Neg Decimal := ⟨neg⟩

def abs (a : Decimal) : Decimal := { a with minus := false }

@[simp] theorem coefficient_neg (a : Decimal) : (-a).coefficient = -a.coefficient := by
  change (if !a.minus then -(a.mantissa : Int) else a.mantissa) = -coefficient a
  cases h : a.minus <;> simp [coefficient, h]

@[simp] theorem natAbs_coefficient (a : Decimal) : a.coefficient.natAbs = a.mantissa := by
  cases h : a.minus <;> simp [coefficient, h]

@[simp] theorem units_zero : (0 : Decimal).units = 0 := by decide

@[simp] theorem units_neg (a : Decimal) : (-a).units = -a.units := by
  change (-a).coefficient * _ = _
  rw [coefficient_neg]
  exact Int.neg_mul _ _

theorem units_abs (a : Decimal) : a.abs.units = a.units.natAbs := by
  have h : ((10 : Int) ^ (maxScale - a.scale)).natAbs = 10 ^ (maxScale - a.scale) := by
    rw [Int.natAbs_pow]
    rfl
  simp only [units, Int.natAbs_mul, natAbs_coefficient, h, Int.natCast_mul, Int.natCast_pow]
  rfl

theorem lt_iff_units {a b : Decimal} : a < b ↔ a.units < b.units := Iff.rfl

theorem le_iff_units {a b : Decimal} : a ≤ b ↔ a.units ≤ b.units := Iff.rfl

theorem pow_pos (k : Nat) : (0 : Int) < 10 ^ k := Int.pow_pos (by decide)

theorem coefficient_eq_zero_iff {a : Decimal} : a.coefficient = 0 ↔ a.isZero = true := by
  rw [← Int.natAbs_eq_zero, natAbs_coefficient, isZero, decide_eq_true_eq]

theorem units_eq_zero_iff {a : Decimal} : a.units = 0 ↔ a.isZero = true := by
  rw [← coefficient_eq_zero_iff, units]
  constructor
  · intro h
    exact (Int.mul_eq_zero.1 h).resolve_right (Int.ne_of_gt (pow_pos _))
  · intro h
    rw [h, Int.zero_mul]

theorem isNegative_iff_coefficient {a : Decimal} : a.isNegative = true ↔ a.coefficient < 0 := by
  cases h : a.minus
  · simp [isNegative, coefficient, h]
  · simp [isNegative, isZero, coefficient, h, Nat.pos_iff_ne_zero]

theorem isNegative_iff {a : Decimal} : a.isNegative = true ↔ a.units < 0 := by
  rw [isNegative_iff_coefficient]
  constructor
  · exact fun h => Int.mul_neg_of_neg_of_pos h (pow_pos _)
  · intro h
    rcases Int.lt_or_le a.coefficient 0 with h' | h'
    · exact h'
    · exact absurd h (Int.not_lt.2 (Int.mul_nonneg h' (Int.le_of_lt (pow_pos _))))

/-! ## Sums -/

/-- The decimal nearest to `coefficient / 10 ^ scale` that keeps the most places: places are
given up one by one, and each time the value is rounded from the exact one. -/
def fit? (coefficient : Int) (scale : Nat) : Option Decimal :=
  (List.range (scale + 1)).findSome? fun dropped =>
    ofCoefficient? (divHalfEven coefficient (10 ^ dropped)) (scale - dropped)

/-- The coefficient of a number at a scale that is not below its own. -/
def coefficientAt (a : Decimal) (scale : Nat) : Int := a.coefficient * 10 ^ (scale - a.scale)

/-- The sum, if it is in range. A zero adds nothing, not even its places. -/
def add? (a b : Decimal) : Option Decimal :=
  if a.isZero then some b
  else if b.isZero then some a
  else
    let scale := max a.scale b.scale
    fit? (a.coefficientAt scale + b.coefficientAt scale) scale

def add (a b : Decimal) : Except Overflow Decimal :=
  match a.add? b with
  | some c => .ok c
  | none => .error .addition

/-- The difference of two numbers. Zero takes nothing away, and keeps its sign. -/
def sub (a b : Decimal) : Except Overflow Decimal :=
  match a.add? (if b.isZero then b else -b) with
  | some c => .ok c
  | none => .error .subtraction

/-- The sum of a list, added up from zero and from the left. -/
def sum (l : List Decimal) : Except Overflow Decimal := l.foldlM add 0

end Decimal

end LayeredLedger
