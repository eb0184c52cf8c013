import LayeredLedger.Binary64.Basic

/-!
# Quick reading of numbers

A number is read in one step: its digits and its power of ten are rounded, and then their product
or quotient. The result can be off by some last bits.

* `Binary64.nearestRatio`: what rounding gives, as an exact quotient;
* `Binary64.quick`: the number that is read.
-/

namespace LayeredLedger

namespace Binary64

/-- The number nearest to a quotient, as an exact quotient. -/
def nearestRatio (n d : Nat) : Nat × Nat :=
  match ofRatio false n d with
  | finite _ mantissa exponent => (mantissa * 2 ^ exponent.toNat, 2 ^ (-exponent).toNat)
  | _ => (0, 1)

/-- The exponent of the largest power of ten. -/
def largestTen : Nat := 308

/-- The quotient `x` times a power of ten, which is rounded before. -/
def timesTen (x : Nat × Nat) (power : Nat) : Nat × Nat :=
  let ten := nearestRatio (10 ^ power) 1
  (x.1 * ten.1, x.2 * ten.2)

/-- The quotient `x` over a power of ten, which is rounded before. -/
def overTen (x : Nat × Nat) (power : Nat) : Nat × Nat :=
  let ten := nearestRatio (10 ^ power) 1
  (x.1 * ten.2, x.2 * ten.1)

/-- Drops digits at the end of `digits · 10 ^ exponent` until the others fit into 64 bits. -/
def inWord (digits : Nat) (exponent : Int) : Nat × Int :=
  if digits < 2 ^ 64 then (digits, exponent) else inWord (digits / 10) (exponent + 1)
termination_by digits
decreasing_by omega

/-- The number that is read for `digits · 10 ^ exponent`. A small power of ten is divided out in
two steps. -/
def quick (minus : Bool) (digits : Nat) (exponent : Int) : Binary64 :=
  let (digits, exponent) := inWord digits exponent
  let x := nearestRatio digits 1
  if digits = 0 then zero minus
  else if largestTen < exponent then infinite minus
  else
    let (n, d) :=
      if 0 ≤ exponent then timesTen x exponent.toNat
      else if -exponent ≤ largestTen then overTen x (-exponent).toNat
      else
        let (n, d) := overTen x largestTen
        overTen (nearestRatio n d) (min largestTen (-exponent - largestTen).toNat)
    ofRatio minus n d

end Binary64

end LayeredLedger
