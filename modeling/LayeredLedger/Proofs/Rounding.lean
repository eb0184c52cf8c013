import LayeredLedger.Decimal.Basic
import Mathlib

/-!
# How far rounding goes

A sum that does not fit is rounded, but never past a whole number. So a sum lies between the sums
of any whole numbers that its parts lie between, and it is in range if those are. What decides
whether a list of amounts can be added up is the sum of the amounts, rounded up to whole numbers;
and a list whose whole parts alone are out of range cannot be added up.

* `le_divHalfEven`, `divHalfEven_le`: rounding keeps to whole bounds;
* `abs_divHalfEven_sub_le`, `divHalfEven_of_dvd`: rounding is off by at most half, or not at all;
* `Decimal.Between`: a decimal between two whole numbers;
* `Decimal.Between.add`, `Decimal.exists_add`: one sum;
* `Decimal.roundedUp`, `Decimal.wholePart`: the whole numbers next to a decimal;
* **`Decimal.exists_foldlM_add`**, **`Decimal.sum_eq_error`**: lists that can be added up, and
  lists that cannot.
-/

namespace LayeredLedger

/-! ## Rounding to whole numbers -/

/-- Rounding gives the quotient if at most half is left over, and its successor if at least half
is. -/
theorem divHalfEven_cases (n : Int) (d : Nat) :
    (divHalfEven n d = n / d ∧ 2 * (n % d) ≤ d) ∨
      (divHalfEven n d = n / d + 1 ∧ (d : Int) ≤ 2 * (n % d)) := by
  unfold divHalfEven
  dsimp only
  split
  · rename_i h
    exact .inl ⟨rfl, h.le⟩
  · rename_i h
    split
    · exact .inr ⟨rfl, not_lt.1 h⟩
    · rename_i h'
      split
      · exact .inl ⟨rfl, not_lt.1 h'⟩
      · exact .inr ⟨rfl, not_lt.1 h⟩

theorem le_divHalfEven {n m : Int} {d : Nat} (hd : 0 < d) (h : m * d ≤ n) :
    m ≤ divHalfEven n d := by
  have hq : m ≤ n / d := Int.le_ediv_of_mul_le (by exact_mod_cast hd) h
  rcases divHalfEven_cases n d with ⟨hcase, -⟩ | ⟨hcase, -⟩ <;> omega

theorem divHalfEven_le {n m : Int} {d : Nat} (hd : 0 < d) (h : n ≤ m * d) :
    divHalfEven n d ≤ m := by
  have hd' : (0 : Int) < d := by exact_mod_cast hd
  have hq : n / d ≤ m := Int.ediv_le_of_le_mul hd' h
  rcases divHalfEven_cases n d with ⟨hcase, -⟩ | ⟨hcase, hrest⟩
  · rw [hcase]
    exact hq
  · -- something is left over, so the quotient is not the bound itself
    have hne : n / d ≠ m := fun e => by
      have hsplit := Int.mul_ediv_add_emod n d
      rw [e, mul_comm] at hsplit
      omega
    omega

/-- Rounding is off by at most half. -/
theorem abs_divHalfEven_sub_le (n : Int) {d : Nat} (hd : 0 < d) :
    2 * |divHalfEven n d * d - n| ≤ d := by
  have hsplit := Int.mul_ediv_add_emod n d
  have hrest := Int.emod_nonneg n (by omega : (d : Int) ≠ 0)
  have hlt := Int.emod_lt_of_pos n (by omega : (0 : Int) < d)
  rw [mul_comm] at hsplit
  rw [Int.abs_eq_natAbs]
  rcases divHalfEven_cases n d with ⟨hcase, hhalf⟩ | ⟨hcase, hhalf⟩
  · rw [hcase]
    omega
  · rw [hcase, add_mul, one_mul]
    omega

theorem divHalfEven_of_dvd {n : Int} {d : Nat} (hd : 0 < d) (h : (d : Int) ∣ n) :
    divHalfEven n d * d = n := by
  have hzero := Int.emod_eq_zero_of_dvd h
  rcases divHalfEven_cases n d with ⟨hcase, -⟩ | ⟨-, hhalf⟩
  · rw [hcase, Int.ediv_mul_cancel h]
  · omega

namespace Decimal

/-! ## Between whole numbers -/

/-- The decimal is between two whole numbers. -/
structure Between (a : Decimal) (low high : Int) : Prop where
  low : low * 10 ^ maxScale ≤ a.units
  high : a.units ≤ high * 10 ^ maxScale

variable {a b c : Decimal} {low high low' high' : Int}

theorem pow_maxScale {scale : Nat} (h : scale ≤ maxScale) :
    (10 : Int) ^ maxScale = 10 ^ scale * 10 ^ (maxScale - scale) := by
  rw [← pow_add, Nat.add_sub_cancel' h]

/-- What the bounds are for the digits of a decimal. -/
theorem between_iff : a.Between low high ↔
    low * 10 ^ a.scale ≤ a.coefficient ∧ a.coefficient ≤ high * 10 ^ a.scale := by
  have hpow := pow_pos (maxScale - a.scale)
  have hunits (m : Int) : m * 10 ^ maxScale = m * 10 ^ a.scale * 10 ^ (maxScale - a.scale) := by
    rw [pow_maxScale a.scale_le, mul_assoc]
  constructor
  · rintro ⟨hlow, hhigh⟩
    rw [hunits, units] at hlow hhigh
    exact ⟨le_of_mul_le_mul_right hlow hpow, le_of_mul_le_mul_right hhigh hpow⟩
  · rintro ⟨hlow, hhigh⟩
    refine ⟨?_, ?_⟩ <;> rw [hunits, units]
    · exact mul_le_mul_of_nonneg_right hlow hpow.le
    · exact mul_le_mul_of_nonneg_right hhigh hpow.le

/-- The bounds for the digits at another scale. -/
theorem Between.coefficientAt (h : a.Between low high) {scale : Nat} (hscale : a.scale ≤ scale) :
    low * 10 ^ scale ≤ a.coefficientAt scale ∧ a.coefficientAt scale ≤ high * 10 ^ scale := by
  have hpow := pow_pos (scale - a.scale)
  have hsplit (m : Int) : m * 10 ^ scale = m * 10 ^ a.scale * 10 ^ (scale - a.scale) := by
    rw [mul_assoc, ← pow_add, Nat.add_sub_cancel' hscale]
  obtain ⟨hlow, hhigh⟩ := between_iff.1 h
  rw [hsplit, hsplit]
  exact ⟨mul_le_mul_of_nonneg_right hlow hpow.le, mul_le_mul_of_nonneg_right hhigh hpow.le⟩

/-- No decimal reaches the bound of the mantissas. -/
theorem Between.low_lt (h : a.Between low high) : low < mantissaBound := by
  have hpow := pow_pos a.scale
  have hlt : a.coefficient < mantissaBound := by
    have h1 : a.coefficient ≤ a.coefficient.natAbs := Int.le_natAbs
    rw [natAbs_coefficient] at h1
    have h2 : (a.mantissa : Int) < mantissaBound := by exact_mod_cast a.mantissa_lt
    exact lt_of_le_of_lt h1 h2
  by_contra hge
  have hbound : (mantissaBound : Int) * 1 ≤ low * 10 ^ a.scale :=
    mul_le_mul (not_lt.1 hge) hpow (by decide) (le_trans (by decide) (not_lt.1 hge))
  have := (between_iff.1 h).1
  omega

theorem isZero_between (hz : a.isZero = true) (h : a.Between low high) : low ≤ 0 ∧ 0 ≤ high := by
  have hunits := units_eq_zero_iff.2 hz
  have hpow := pow_pos maxScale
  obtain ⟨hlow, hhigh⟩ := h
  rw [hunits] at hlow hhigh
  exact ⟨nonpos_of_mul_nonpos_left hlow hpow, nonneg_of_mul_nonneg_left hhigh hpow⟩

/-! ## Sums -/

theorem ofCoefficient?_eq_some {n : Int} {scale : Nat} (h : ofCoefficient? n scale = some c) :
    c.coefficient = n ∧ c.scale = scale := by
  unfold ofCoefficient? ofParts? at h
  split at h
  · obtain rfl := Option.some.inj h
    refine ⟨?_, rfl⟩
    by_cases hn : n < 0
    · simp only [coefficient, hn, decide_true, if_true]
      omega
    · simp only [coefficient, hn, decide_false, Bool.false_eq_true, if_false]
      omega
  · cases h

section Fit

variable {n : Int} {scale : Nat} (hlow : low * 10 ^ scale ≤ n) (hhigh : n ≤ high * 10 ^ scale)

include hlow hhigh

/-- Places that are given up leave the bounds as they are. -/
theorem divHalfEven_between {dropped : Nat} (hdropped : dropped ≤ scale) :
    low * 10 ^ (scale - dropped) ≤ divHalfEven n (10 ^ dropped) ∧
      divHalfEven n (10 ^ dropped) ≤ high * 10 ^ (scale - dropped) := by
  have hpow : 0 < 10 ^ dropped := Nat.pow_pos (by decide)
  have hsplit (m : Int) : m * 10 ^ (scale - dropped) * ((10 ^ dropped : Nat) : Int) =
      m * 10 ^ scale := by
    rw [Nat.cast_pow, Nat.cast_ofNat, mul_assoc, ← pow_add, Nat.sub_add_cancel hdropped]
  exact ⟨le_divHalfEven hpow (by rw [hsplit]; exact hlow),
    divHalfEven_le hpow (by rw [hsplit]; exact hhigh)⟩

theorem fit?_between (h : fit? n scale = some c) : c.Between low high := by
  obtain ⟨dropped, hdropped, hc⟩ := List.exists_of_findSome?_eq_some h
  obtain ⟨hcoefficient, hscale⟩ := ofCoefficient?_eq_some hc
  have hle : dropped ≤ scale := Nat.lt_succ_iff.1 (List.mem_range.1 hdropped)
  rw [between_iff, hcoefficient, hscale]
  exact divHalfEven_between hlow hhigh hle

/-- Without places a number between whole numbers in range is in range. -/
theorem exists_fit? (hmin : -(mantissaBound : Int) < low) (hmax : high < mantissaBound) :
    ∃ c, fit? n scale = some c := by
  cases h : fit? n scale with
  | some c => exact ⟨c, rfl⟩
  | none =>
    have hnone := List.findSome?_eq_none_iff.1 h scale (by simp)
    obtain ⟨hl, hh⟩ := divHalfEven_between hlow hhigh le_rfl
    rw [Nat.sub_self, pow_zero, mul_one] at hl hh
    rw [ofCoefficient?, ofParts?, dif_pos ⟨by omega, by omega⟩] at hnone
    cases hnone

end Fit

theorem add_eq_ok : a.add b = .ok c ↔ a.add? b = some c := by
  unfold add
  cases a.add? b <;> simp

/-- A sum is between the sums of the bounds, however it is rounded. -/
theorem Between.add (ha : a.Between low high) (hb : b.Between low' high') (h : a.add b = .ok c) :
    c.Between (low + low') (high + high') := by
  have h := add_eq_ok.1 h
  unfold add? at h
  split at h
  · rename_i hz
    obtain rfl := Option.some.inj h
    obtain ⟨h0, h1⟩ := isZero_between hz ha
    have hpow := pow_pos maxScale
    exact ⟨le_trans (mul_le_mul_of_nonneg_right (by omega) hpow.le) hb.low,
      le_trans hb.high (mul_le_mul_of_nonneg_right (by omega) hpow.le)⟩
  split at h
  · rename_i hz
    obtain rfl := Option.some.inj h
    obtain ⟨h0, h1⟩ := isZero_between hz hb
    have hpow := pow_pos maxScale
    exact ⟨le_trans (mul_le_mul_of_nonneg_right (by omega) hpow.le) ha.low,
      le_trans ha.high (mul_le_mul_of_nonneg_right (by omega) hpow.le)⟩
  · obtain ⟨hal, hah⟩ := ha.coefficientAt (Nat.le_max_left a.scale b.scale)
    obtain ⟨hbl, hbh⟩ := hb.coefficientAt (Nat.le_max_right a.scale b.scale)
    refine fit?_between ?_ ?_ h
    · rw [add_mul]
      exact add_le_add hal hbl
    · rw [add_mul]
      exact add_le_add hah hbh

/-- There is a sum if the sums of the bounds are in range. -/
theorem exists_add (ha : a.Between low high) (hb : b.Between low' high')
    (hmin : -(mantissaBound : Int) < low + low') (hmax : high + high' < mantissaBound) :
    ∃ c, a.add b = .ok c := by
  simp only [add_eq_ok]
  unfold add?
  split
  · exact ⟨b, rfl⟩
  split
  · exact ⟨a, rfl⟩
  · obtain ⟨hal, hah⟩ := ha.coefficientAt (Nat.le_max_left a.scale b.scale)
    obtain ⟨hbl, hbh⟩ := hb.coefficientAt (Nat.le_max_right a.scale b.scale)
    refine exists_fit? ?_ ?_ hmin hmax
    · rw [add_mul]
      exact add_le_add hal hbl
    · rw [add_mul]
      exact add_le_add hah hbh

/-! ## Lists -/

-- The two are irreducible since a check that unfolds them counts up to the power of ten.

/-- The size of the decimal without its sign, rounded up to a whole number. -/
@[irreducible] def roundedUp (a : Decimal) : Nat :=
  (a.units.natAbs + (10 ^ maxScale - 1)) / 10 ^ maxScale

/-- The size of the decimal without its sign and its places. -/
@[irreducible] def wholePart (a : Decimal) : Nat := a.units.natAbs / 10 ^ maxScale

@[simp] theorem roundedUp_neg (a : Decimal) : (-a).roundedUp = a.roundedUp := by
  simp [roundedUp]

@[simp] theorem roundedUp_abs (a : Decimal) : a.abs.roundedUp = a.roundedUp := by
  simp [roundedUp, units_abs, Int.natAbs_abs]

theorem natAbs_le_roundedUp (a : Decimal) : a.units.natAbs ≤ a.roundedUp * 10 ^ maxScale := by
  have h := Nat.div_add_mod (a.units.natAbs + (10 ^ maxScale - 1)) (10 ^ maxScale)
  have hlt := Nat.mod_lt (a.units.natAbs + (10 ^ maxScale - 1))
    (Nat.pow_pos (by decide) : 0 < 10 ^ maxScale)
  unfold roundedUp
  rw [mul_comm]
  omega

theorem between_roundedUp (a : Decimal) : a.Between (-a.roundedUp) a.roundedUp := by
  have h : (a.units.natAbs : Int) ≤ a.roundedUp * 10 ^ maxScale := by
    exact_mod_cast a.natAbs_le_roundedUp
  refine ⟨?_, ?_⟩
  · rw [neg_mul]
    omega
  · omega

theorem between_of_nonneg (h : 0 ≤ a.units) : a.Between a.wholePart a.roundedUp := by
  have hle : a.wholePart * 10 ^ maxScale ≤ a.units.natAbs := by
    rw [wholePart]
    exact Nat.div_mul_le_self _ _
  have hcast : (a.wholePart : Int) * 10 ^ maxScale ≤ a.units.natAbs := by exact_mod_cast hle
  refine ⟨?_, a.between_roundedUp.high⟩
  omega

theorem zero_between : (0 : Decimal).Between 0 0 := ⟨by simp, by simp⟩

/-- A list is between the sums of bounds of its parts. -/
theorem Between.foldlM_add {f g : Decimal → Int} {l : List Decimal}
    (hl : ∀ x ∈ l, x.Between (f x) (g x)) (ha : a.Between low high)
    (h : l.foldlM Decimal.add a = .ok c) :
    c.Between (low + (l.map f).sum) (high + (l.map g).sum) := by
  induction l generalizing a low high with
  | nil =>
    obtain rfl := Except.ok.inj h
    simpa using ha
  | cons x l ih =>
    rw [List.foldlM_cons] at h
    cases hx : a.add x with
    | error o => rw [hx] at h; cases h
    | ok next =>
      rw [hx] at h
      have hnext := ha.add (hl x List.mem_cons_self) hx
      have := ih (fun y hy => hl y (List.mem_cons_of_mem x hy)) hnext h
      simpa only [List.map_cons, List.sum_cons, add_assoc] using this

/-- What a list comes to at most, in whole numbers. -/
def load (l : List Decimal) : Nat := (l.map roundedUp).sum

/-- What a list comes to at least, in whole numbers, if nothing in it is negative. -/
def wholeLoad (l : List Decimal) : Nat := (l.map wholePart).sum

@[simp] theorem load_nil : load [] = 0 := rfl

@[simp] theorem load_cons (x : Decimal) (l : List Decimal) :
    load (x :: l) = x.roundedUp + load l := List.sum_cons

@[simp] theorem load_append (l l' : List Decimal) : load (l ++ l') = load l + load l' := by
  simp [load]

theorem load_le_of_sublist {l l' : List Decimal} (h : l.Sublist l') : load l ≤ load l' := by
  induction h with
  | slnil => exact le_rfl
  | cons x _ ih =>
    rw [load_cons]
    omega
  | cons_cons x _ ih =>
    rw [load_cons, load_cons]
    omega

theorem sum_neg_roundedUp (l : List Decimal) :
    (l.map fun x => -(x.roundedUp : Int)).sum = -(load l : Int) := by
  induction l with
  | nil => rfl
  | cons x l ih =>
    rw [List.map_cons, List.sum_cons, ih, load_cons]
    omega

theorem sum_roundedUp (l : List Decimal) :
    (l.map fun x => (x.roundedUp : Int)).sum = (load l : Int) := by
  induction l with
  | nil => rfl
  | cons x l ih => rw [List.map_cons, List.sum_cons, ih, load_cons, Nat.cast_add]

/-- **A list can be added up if its load is in range**, in any order and with any signs. -/
theorem exists_foldlM_add {l : List Decimal} {bound : Nat} (ha : a.Between (-bound) bound)
    (h : bound + load l < mantissaBound) : ∃ c, l.foldlM Decimal.add a = .ok c := by
  induction l generalizing a bound with
  | nil => exact ⟨a, rfl⟩
  | cons x l ih =>
    rw [load_cons] at h
    have hx := x.between_roundedUp
    obtain ⟨next, hnext⟩ := exists_add ha hx (by omega) (by omega)
    have hsum := ha.add hx hnext
    have hbound : next.Between (-((bound + x.roundedUp : Nat) : Int)) (bound + x.roundedUp : Nat) :=
      ⟨by push_cast; rw [neg_add]; exact hsum.low, by push_cast; exact hsum.high⟩
    obtain ⟨c, hc⟩ := ih hbound (by omega)
    rw [List.foldlM_cons, hnext]
    exact ⟨c, hc⟩

theorem exists_sum {l : List Decimal} (h : load l < mantissaBound) :
    ∃ c, Decimal.sum l = .ok c ∧ c.Between (-(load l : Int)) (load l) := by
  have hstart : (0 : Decimal).Between (-((0 : Nat) : Int)) (0 : Nat) := zero_between
  obtain ⟨c, hc⟩ := exists_foldlM_add hstart (by omega : 0 + load l < mantissaBound)
  refine ⟨c, hc, ?_⟩
  have := zero_between.foldlM_add (fun x _ => x.between_roundedUp) hc
  rwa [sum_neg_roundedUp, sum_roundedUp, zero_add, zero_add] at this

theorem error_of_add {o : Overflow} (h : a.add b = .error o) : o = .addition := by
  unfold add at h
  split at h
  · cases h
  · exact (Except.error.inj h).symm

theorem error_of_foldlM_add {l : List Decimal} {o : Overflow}
    (h : l.foldlM Decimal.add a = .error o) : o = .addition := by
  induction l generalizing a with
  | nil => cases h
  | cons x l ih =>
    rw [List.foldlM_cons] at h
    cases hx : a.add x with
    | ok next =>
      rw [hx] at h
      exact ih h
    | error o' =>
      rw [hx] at h
      obtain rfl : o' = o := Except.error.inj h
      exact error_of_add hx

/-- **A list without negative parts cannot be added up if its whole parts are out of range.** -/
theorem sum_eq_error {l : List Decimal} (hl : ∀ x ∈ l, 0 ≤ x.units)
    (h : mantissaBound ≤ wholeLoad l) : Decimal.sum l = .error .addition := by
  cases hsum : Decimal.sum l with
  | error o => rw [error_of_foldlM_add hsum]
  | ok c =>
    have hc := zero_between.foldlM_add (fun x hx => between_of_nonneg (hl x hx)) hsum
    have hlow := hc.low_lt
    have hcast : (l.map fun x => (x.wholePart : Int)).sum = (wholeLoad l : Int) := by
      simp [wholeLoad, Function.comp_def]
    rw [hcast, zero_add] at hlow
    omega

end Decimal

end LayeredLedger
