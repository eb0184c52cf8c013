import LayeredLedger.Proofs.Balances
import LayeredLedger.Proofs.LayerSums

/-!
# Validation and exact balance

Validation compares rounded sums. A sum of amounts above zero is rounded only when it has too many
digits, and then it is off by at most one part in `10²⁸`. So with each addition a side loses or
gains at most as many of the smallest units as it comes to in whole numbers. Lists that pass
balance up to that, and lists that are refused have sums that differ after rounding. Where nothing
needs rounding, validation says exactly that the two sides of every layer have the same sum.

* `Decimal.of_fit?`, `Decimal.add?_cases`: what rounding gives up;
* `Decimal.abs_add_sub_le`, `Decimal.abs_sum_sub_le`: how far a sum is off;
* `Decimal.FitsExactly`, `Decimal.sum_of_fitsExactly`: sums that are not rounded;
* `exactOn`, `slackOn`: the exact sum of a side, and how far the rounded one can be off;
* **`validate_up_to_rounding`**: what validation says about exact sums;
* `rounding_decides`: a list that is off and passes, and one that balances and is refused.
-/

namespace LayeredLedger

namespace Decimal

variable {a b c : Decimal} {n : Int} {scale : Nat}

/-! ## One sum -/

theorem exists_ofCoefficient? (hn : n.natAbs < mantissaBound) (hscale : scale ≤ maxScale) :
    ∃ c, ofCoefficient? n scale = some c := by
  rw [ofCoefficient?, ofParts?, dif_pos ⟨hn, hscale⟩]
  exact ⟨_, rfl⟩

/-- As few places are given up as can be. -/
theorem of_fit? (h : fit? n scale = some c) : ∃ dropped ≤ scale,
    c.coefficient = divHalfEven n (10 ^ dropped) ∧ c.scale = scale - dropped ∧
      ∀ fewer < dropped, ofCoefficient? (divHalfEven n (10 ^ fewer)) (scale - fewer) = none := by
  obtain ⟨before, dropped, after, hrange, hc, hbefore⟩ := List.findSome?_eq_some_iff.1 h
  obtain ⟨hcoefficient, hscale⟩ := ofCoefficient?_eq_some hc
  have hle : dropped < scale + 1 := List.mem_range.1 (by simp [hrange])
  refine ⟨dropped, by omega, hcoefficient, hscale, fun fewer hfewer => hbefore fewer ?_⟩
  have hmem : fewer ∈ before ++ dropped :: after :=
    hrange ▸ List.mem_range.2 (hfewer.trans hle)
  have hascending : (before ++ dropped :: after).Pairwise (· < ·) :=
    hrange ▸ List.pairwise_lt_range
  exact mem_before_of_key_lt hascending hmem hfewer

theorem coefficientAt_mul (h : a.scale ≤ scale) (hscale : scale ≤ maxScale) :
    a.coefficientAt scale * 10 ^ (maxScale - scale) = a.units := by
  rw [coefficientAt, units, mul_assoc, ← pow_add]
  congr 2
  omega

/-- A sum with a zero is the other number, and any other sum is rounded from the exact one. -/
theorem add?_cases (a b : Decimal) : (a.units = 0 ∧ a.add? b = some b) ∨
    (b.units = 0 ∧ a.add? b = some a) ∨ ∃ n scale, scale ≤ maxScale ∧
      n * 10 ^ (maxScale - scale) = a.units + b.units ∧ a.add? b = fit? n scale := by
  unfold add?
  split
  · rename_i hz
    exact .inl ⟨units_eq_zero_iff.2 hz, rfl⟩
  split
  · rename_i hz
    exact .inr (.inl ⟨units_eq_zero_iff.2 hz, rfl⟩)
  · have hscale : max a.scale b.scale ≤ maxScale := max_le a.scale_le b.scale_le
    refine .inr (.inr ⟨_, _, hscale, ?_, rfl⟩)
    rw [add_mul, coefficientAt_mul (le_max_left _ _) hscale,
      coefficientAt_mul (le_max_right _ _) hscale]

/-- The value of a rounded number, in steps of the scale that it is rounded from. -/
theorem units_of_dropped {dropped : Nat} (hdropped : dropped ≤ scale) (hscale : scale ≤ maxScale)
    (hc : c.scale = scale - dropped) :
    c.units = c.coefficient * 10 ^ dropped * 10 ^ (maxScale - scale) := by
  rw [units, hc, mul_assoc, ← pow_add]
  congr 2
  omega

/-! ## How far a sum is off -/

/-- Places are given up only for numbers so large that rounding is off by at most one part in
`10²⁸`. -/
theorem abs_divHalfEven_mul_sub_le (hn : 0 ≤ n) (dropped : Nat)
    (hfewer : ∀ fewer < dropped, mantissaBound ≤ (divHalfEven n (10 ^ fewer)).natAbs) :
    |divHalfEven n (10 ^ dropped) * 10 ^ dropped - n| * 10 ^ 28 ≤
      divHalfEven n (10 ^ dropped) * 10 ^ dropped := by
  cases dropped with
  | zero =>
    have hsame : divHalfEven n (10 ^ 0) * 10 ^ 0 = n :=
      divHalfEven_of_dvd Nat.one_pos (one_dvd n)
    rw [hsame, sub_self, abs_zero, zero_mul]
    exact hn
  | succ k =>
    have hpow : 0 < 10 ^ k := Nat.pow_pos (by decide)
    have hquotient : 0 ≤ divHalfEven n (10 ^ k) := le_divHalfEven hpow (by simpa using hn)
    have hlarge : (mantissaBound : Int) ≤ divHalfEven n (10 ^ k) := by
      have := hfewer k (Nat.lt_succ_self k)
      omega
    have hmul : (mantissaBound : Int) * (10 ^ k : Nat) ≤ divHalfEven n (10 ^ k) * (10 ^ k : Nat) :=
      mul_le_mul_of_nonneg_right hlarge (Int.natCast_nonneg _)
    -- with one place more the digits do not fit, so the number is large against that place
    have hclose := abs_divHalfEven_sub_le n hpow
    have hcloser := abs_divHalfEven_sub_le n (Nat.pow_pos (by decide) : 0 < 10 ^ (k + 1))
    have hbound : (mantissaBound : Int) = 79228162514264337593543950336 := by decide
    generalize divHalfEven n (10 ^ (k + 1)) = rounded at hcloser ⊢
    generalize divHalfEven n (10 ^ k) = quotient at hclose hmul
    rw [hbound] at hmul
    push_cast at hclose hcloser hmul
    have hplace := pow_pos k
    have hsucc : (10 : Int) ^ (k + 1) = 10 * 10 ^ k := pow_succ' 10 k
    rw [hsucc] at hcloser ⊢
    have hhigh := le_abs_self (quotient * 10 ^ k - n)
    have hlow := neg_abs_le (rounded * (10 * 10 ^ k) - n)
    linarith

/-- **A sum of numbers that are not negative is off by at most one part in `10²⁸`.** -/
theorem abs_add_sub_le (ha : 0 ≤ a.units) (hb : 0 ≤ b.units) (h : a.add b = .ok c) :
    |c.units - (a.units + b.units)| * 10 ^ 28 ≤ c.units := by
  have h := add_eq_ok.1 h
  rcases add?_cases a b with ⟨hz, hsum⟩ | ⟨hz, hsum⟩ | ⟨n, scale, hscale, hn, hsum⟩
  · obtain rfl := Option.some.inj (h.symm.trans hsum)
    simpa [hz] using hb
  · obtain rfl := Option.some.inj (h.symm.trans hsum)
    simpa [hz] using ha
  · have hpow := pow_pos (maxScale - scale)
    have hnonneg : 0 ≤ n := nonneg_of_mul_nonneg_left (by rw [hn]; exact add_nonneg ha hb) hpow
    obtain ⟨dropped, hdropped, hcoefficient, hc, hfewer⟩ := of_fit? (hsum.symm.trans h)
    have hunits := units_of_dropped hdropped hscale hc
    rw [hcoefficient] at hunits
    have hclose := abs_divHalfEven_mul_sub_le hnonneg dropped fun fewer hlt => by
      by_contra hsmall
      obtain ⟨d, hd⟩ := exists_ofCoefficient? (not_le.1 hsmall)
        (by omega : scale - fewer ≤ maxScale)
      cases (hfewer fewer hlt).symm.trans hd
    rw [hunits, ← hn, ← sub_mul, abs_mul, abs_of_pos hpow, mul_right_comm]
    exact mul_le_mul_of_nonneg_right hclose hpow.le

/-- With each addition a list of numbers that are not negative is off by at most what it comes to
in whole numbers, in the smallest unit. -/
theorem abs_foldlM_add_sub_le {l : List Decimal} {bound : Nat} (hl : ∀ x ∈ l, 0 ≤ x.units)
    (ha : a.Between 0 bound) (h : l.foldlM Decimal.add a = .ok c) :
    |c.units - (a.units + (l.map units).sum)| ≤ l.length * (bound + load l : Nat) := by
  induction l generalizing a bound with
  | nil =>
    obtain rfl := Except.ok.inj h
    simp
  | cons x l ih =>
    rw [List.foldlM_cons] at h
    cases hx : a.add x with
    | error o =>
      rw [hx] at h
      cases h
    | ok next =>
      rw [hx] at h
      have hxnonneg := hl x List.mem_cons_self
      have hnext : next.Between 0 (bound + x.roundedUp : Nat) := by
        have := ha.add (⟨by simpa using hxnonneg, x.between_roundedUp.high⟩ : x.Between 0 _) hx
        simpa using this
      have hrest := ih (fun y hy => hl y (List.mem_cons_of_mem x hy)) hnext h
      have hfirst : |next.units - (a.units + x.units)| ≤ (bound + x.roundedUp : Nat) :=
        le_of_mul_le_mul_right
          ((abs_add_sub_le (by simpa using ha.low) hxnonneg hx).trans hnext.high) (pow_pos 28)
      have hsplit : c.units - (a.units + ((x :: l).map units).sum) =
          (c.units - (next.units + (l.map units).sum)) + (next.units - (a.units + x.units)) := by
        rw [List.map_cons, List.sum_cons]
        ring
      rw [hsplit, List.length_cons, load_cons, ← add_assoc]
      calc |(c.units - (next.units + (l.map units).sum)) + (next.units - (a.units + x.units))|
          ≤ l.length * (bound + x.roundedUp + load l : Nat) + (bound + x.roundedUp : Nat) :=
            (abs_add_le _ _).trans (add_le_add hrest hfirst)
        _ ≤ (l.length + 1 : Nat) * (bound + x.roundedUp + load l : Nat) := by
            push_cast
            rw [add_mul, one_mul]
            omega

theorem abs_sum_sub_le {l : List Decimal} (hl : ∀ x ∈ l, 0 ≤ x.units)
    (h : Decimal.sum l = .ok c) : |c.units - (l.map units).sum| ≤ l.length * load l := by
  have hstart : (0 : Decimal).Between 0 (0 : Nat) := zero_between
  simpa using abs_foldlM_add_sub_le hl hstart h

/-! ## Sums that are not rounded -/

/-- At some number of places all numbers of a list can be written, and their sum as well. -/
def FitsExactly (l : List Decimal) : Prop :=
  ∃ places ≤ maxScale, (∀ x ∈ l, (10 : Int) ^ (maxScale - places) ∣ x.units) ∧
    (l.map units).sum < mantissaBound * 10 ^ (maxScale - places)

theorem FitsExactly.sublist {l l' : List Decimal} (hl : ∀ x ∈ l', 0 ≤ x.units)
    (h : FitsExactly l') (hsub : l.Sublist l') : FitsExactly l := by
  obtain ⟨places, hplaces, hdvd, hsum⟩ := h
  have hle : (l.map units).sum ≤ (l'.map units).sum :=
    (hsub.map units).sum_le_sum fun x hx => by
      obtain ⟨y, hy, rfl⟩ := List.mem_map.1 hx
      exact hl y hy
  exact ⟨places, hplaces, fun x hx => hdvd x (hsub.subset hx), hle.trans_lt hsum⟩

/-- Nothing is lost if the places that have to be given up are zeros. -/
theorem fit?_exact {dropped : Nat} (hdropped : dropped ≤ scale) (hscale : scale ≤ maxScale)
    (hn : 0 ≤ n) (hdvd : (10 : Int) ^ dropped ∣ n) (hlt : n < mantissaBound * 10 ^ dropped) :
    ∃ c, fit? n scale = some c ∧ c.units = n * 10 ^ (maxScale - scale) := by
  have hexact {k : Nat} (hk : k ≤ dropped) : divHalfEven n (10 ^ k) * 10 ^ k = n := by
    have h := divHalfEven_of_dvd (Nat.pow_pos (by decide) : 0 < 10 ^ k) (n := n)
      (by push_cast; exact (pow_dvd_pow 10 hk).trans hdvd)
    simpa using h
  -- with these places given up the number fits, so no more are given up
  obtain ⟨small, hsmall⟩ : ∃ d, ofCoefficient? (divHalfEven n (10 ^ dropped)) (scale - dropped) =
      some d := by
    have hpow := pow_pos dropped
    have hnonneg : 0 ≤ divHalfEven n (10 ^ dropped) :=
      nonneg_of_mul_nonneg_left (by rw [hexact le_rfl]; exact hn) hpow
    have hbound : divHalfEven n (10 ^ dropped) < mantissaBound :=
      lt_of_mul_lt_mul_right (by rw [hexact le_rfl]; exact hlt) hpow.le
    exact exists_ofCoefficient? (by omega) (by omega)
  cases hfit : fit? n scale with
  | none =>
    have hnone := List.findSome?_eq_none_iff.1 hfit dropped
      (List.mem_range.2 (Nat.lt_succ_of_le hdropped))
    cases hnone.symm.trans hsmall
  | some c =>
    obtain ⟨k, hk, hcoefficient, hc, hfewer⟩ := of_fit? hfit
    have hle : k ≤ dropped := by
      by_contra hlt
      cases (hfewer dropped (not_le.1 hlt)).symm.trans hsmall
    exact ⟨c, rfl, by rw [units_of_dropped hk hscale hc, hcoefficient, hexact hle]⟩

theorem addsExactly_of_places {places : Nat} (ha : 0 ≤ a.units) (hb : 0 ≤ b.units)
    (hplaces : places ≤ maxScale) (hadvd : (10 : Int) ^ (maxScale - places) ∣ a.units)
    (hbdvd : (10 : Int) ^ (maxScale - places) ∣ b.units)
    (hlt : a.units + b.units < mantissaBound * 10 ^ (maxScale - places)) : a.AddsExactly b := by
  refine gives_iff.2 ?_
  simp only [add_eq_ok]
  rcases add?_cases a b with ⟨hz, hsum⟩ | ⟨hz, hsum⟩ | ⟨n, scale, hscale, hn, hsum⟩
  · exact ⟨b, hsum, by rw [hz, zero_add]⟩
  · exact ⟨a, hsum, by rw [hz, add_zero]⟩
  · have hpow := pow_pos (maxScale - scale)
    have hdvd := dvd_add hadvd hbdvd
    rw [← hn] at hdvd hlt ⊢
    rw [hsum]
    have hnonneg : 0 ≤ n := nonneg_of_mul_nonneg_left (by rw [hn]; exact add_nonneg ha hb) hpow
    rcases le_total places scale with hle | hle
    · have hsplit : (10 : Int) ^ (maxScale - places) =
          10 ^ (scale - places) * 10 ^ (maxScale - scale) := by
        rw [← pow_add]
        congr 1
        omega
      rw [hsplit] at hdvd hlt
      rw [← mul_assoc] at hlt
      exact fit?_exact (Nat.sub_le _ _) hscale hnonneg
        (Int.dvd_of_mul_dvd_mul_right hpow.ne' hdvd) (lt_of_mul_lt_mul_right hlt hpow.le)
    · have hmono : (10 : Int) ^ (maxScale - places) ≤ 10 ^ (maxScale - scale) :=
        pow_le_pow_right₀ (by decide) (by omega)
      have hlt' : n * 10 ^ (maxScale - scale) < mantissaBound * 10 ^ (maxScale - scale) :=
        hlt.trans_le (mul_le_mul_of_nonneg_left hmono (by decide))
      exact fit?_exact (Nat.zero_le _) hscale hnonneg (one_dvd n)
        (by simpa using lt_of_mul_lt_mul_right hlt' hpow.le)

theorem foldlM_add_of_places {l : List Decimal} {places : Nat} (hplaces : places ≤ maxScale)
    (ha : 0 ≤ a.units) (hadvd : (10 : Int) ^ (maxScale - places) ∣ a.units)
    (hl : ∀ x ∈ l, 0 ≤ x.units) (hldvd : ∀ x ∈ l, (10 : Int) ^ (maxScale - places) ∣ x.units)
    (hlt : a.units + (l.map units).sum < mantissaBound * 10 ^ (maxScale - places)) :
    Gives (l.foldlM Decimal.add a) (a.units + (l.map units).sum) := by
  induction l generalizing a with
  | nil => exact gives_iff.2 ⟨a, rfl, by simp⟩
  | cons x l ih =>
    rw [List.map_cons, List.sum_cons, ← add_assoc] at hlt ⊢
    have hx := hl x List.mem_cons_self
    have hxdvd := hldvd x List.mem_cons_self
    have hrest : 0 ≤ (l.map units).sum := List.sum_nonneg fun y hy => by
      obtain ⟨z, hz, rfl⟩ := List.mem_map.1 hy
      exact hl z (List.mem_cons_of_mem x hz)
    obtain ⟨next, hnext, hunits⟩ :=
      gives_iff.1 (addsExactly_of_places ha hx hplaces hadvd hxdvd (by omega))
    rw [List.foldlM_cons, hnext, ← hunits]
    rw [← hunits] at hlt
    exact ih (by omega) (hunits ▸ dvd_add hadvd hxdvd)
      (fun y hy => hl y (List.mem_cons_of_mem x hy))
      (fun y hy => hldvd y (List.mem_cons_of_mem x hy)) hlt

theorem sum_of_fitsExactly {l : List Decimal} (hl : ∀ x ∈ l, 0 ≤ x.units) (h : FitsExactly l) :
    Gives (Decimal.sum l) (l.map units).sum := by
  obtain ⟨places, hplaces, hdvd, hlt⟩ := h
  have hsum : Gives (Decimal.sum l) ((0 : Decimal).units + (l.map units).sum) :=
    foldlM_add_of_places hplaces (by simp) (by simp) hl hdvd (by simpa using hlt)
  simpa using hsum

end Decimal

/-! ## Validation -/

section Sides

variable (side : Side) (layer : Layer) (entries : List Entry)

/-- The exact sum of a side of a layer, in units. -/
def exactOn : Int := ((amountsOn side layer (entries.map Entry.posting)).map Decimal.units).sum

/-- How far the rounded sum of a side can be off, in units: what the side comes to at most in
whole numbers, for each of its amounts. -/
def slackOn : Nat :=
  (amountsOn side layer (entries.map Entry.posting)).length *
    loadOn side layer (entries.map Entry.posting)

end Sides

section Amounts

variable {entries : List Entry} (hpos : ∀ e ∈ entries, 0 < e.amount)

include hpos

theorem abs_sub_exactOn_le {side : Side} {layer : Layer} {sum : Decimal}
    (h : Decimal.sum (amountsOn side layer (entries.map Entry.posting)) = .ok sum) :
    |sum.units - exactOn side layer entries| ≤ slackOn side layer entries := by
  rw [slackOn, Nat.cast_mul]
  exact Decimal.abs_sum_sub_le (fun x hx => units_nonneg_of_mem_amountsOn hpos hx) h

/-- Sides that validation takes to be equal are equal up to rounding. -/
theorem BalancesOn.abs_exactOn_sub_le {layer : Layer}
    (h : BalancesOn (entries.map Entry.posting) layer) :
    |exactOn .debit layer entries - exactOn .credit layer entries| ≤
      slackOn .debit layer entries + slackOn .credit layer entries := by
  obtain ⟨debits, credits, hdebits, hcredits, hsame⟩ := h
  have hd := abs_sub_exactOn_le hpos hdebits
  have hc := abs_sub_exactOn_le hpos hcredits
  rw [show debits.units = credits.units from hsame] at hd
  rw [abs_le] at hd hc ⊢
  omega

theorem balancesOn_iff_of_fitsExactly {layer : Layer}
    (hfits : ∀ side, Decimal.FitsExactly (amountsOn side layer (entries.map Entry.posting))) :
    BalancesOn (entries.map Entry.posting) layer ↔
      exactOn .debit layer entries = exactOn .credit layer entries := by
  have hsum (side : Side) : Gives (Decimal.sum (amountsOn side layer (entries.map Entry.posting)))
      (exactOn side layer entries) :=
    Decimal.sum_of_fitsExactly (fun x hx => units_nonneg_of_mem_amountsOn hpos hx) (hfits side)
  obtain ⟨debits, hdebits, hdunits⟩ := gives_iff.1 (hsum .debit)
  obtain ⟨credits, hcredits, hcunits⟩ := gives_iff.1 (hsum .credit)
  rw [← hdunits, ← hcunits]
  constructor
  · rintro ⟨debits', credits', hdebits', hcredits', hsame⟩
    obtain rfl := Except.ok.inj (hdebits.symm.trans hdebits')
    obtain rfl := Except.ok.inj (hcredits.symm.trans hcredits')
    exact hsame
  · exact fun hsame => ⟨debits, credits, hdebits, hcredits, hsame⟩

end Amounts

/-- **What validation says about exact sums.** A list that passes has entries, their amounts are
above zero and on every layer the exact sums differ by no more than rounding explains. A layer is
reported if its sums differ after rounding, and each of the two is exact up to rounding. Where
sums need no rounding, validation says of every layer that its exact sums are equal. -/
theorem validate_up_to_rounding (entries : List Entry) :
    (validate entries = .ok () → entries ≠ [] ∧ (∀ e ∈ entries, 0 < e.amount) ∧
      ∀ layer, |exactOn .debit layer entries - exactOn .credit layer entries| ≤
        slackOn .debit layer entries + slackOn .credit layer entries) ∧
    (∀ layer debits credits,
      validate entries = .error (.error (.unbalanced layer debits credits)) →
        ¬debits.SameValue credits ∧
        |debits.units - exactOn .debit layer entries| ≤ slackOn .debit layer entries ∧
        |credits.units - exactOn .credit layer entries| ≤ slackOn .credit layer entries) ∧
    ((∀ side layer, Decimal.FitsExactly (amountsOn side layer (entries.map Entry.posting))) →
      (validate entries = .ok () ↔ entries ≠ [] ∧ (∀ e ∈ entries, 0 < e.amount) ∧
        ∀ layer, exactOn .debit layer entries = exactOn .credit layer entries)) := by
  refine ⟨fun h => ?_, fun layer debits credits h => ?_, fun hfits => ?_⟩
  · obtain ⟨hne, hpos, hbalances⟩ := validate_eq_ok_iff.1 h
    exact ⟨hne, hpos, fun layer => (hbalances layer).abs_exactOn_sub_le hpos⟩
  · obtain ⟨hpos, hdebits, hcredits, hdiffer⟩ := of_validate_eq_unbalanced h
    exact ⟨hdiffer, abs_sub_exactOn_le hpos hdebits, abs_sub_exactOn_le hpos hcredits⟩
  · rw [validate_eq_ok_iff]
    refine and_congr_right fun _ => and_congr_right fun hpos => forall_congr' fun layer => ?_
    exact balancesOn_iff_of_fitsExactly hpos fun side => hfits side layer

open SmallLedger in
/-- A payment whose sums need no rounding balances exactly. One that is off by a hair, and the total
of a fee that is paid short, are exact up to rounding. -/
theorem validate_up_to_rounding_twoParts :
    (∀ layer, exactOn .debit layer twoParts.entries = exactOn .credit layer twoParts.entries) ∧
    (∀ layer, |exactOn .debit layer offByAHair.entries - exactOn .credit layer offByAHair.entries| ≤
      slackOn .debit layer offByAHair.entries + slackOn .credit layer offByAHair.entries) ∧
    |(dollars 2).units - exactOn .credit (.of .fee usdId) shortFee.entries| ≤
      slackOn .credit (.of .fee usdId) shortFee.entries := by
  have hfits (side : Side) (layer : Layer) :
      Decimal.FitsExactly (amountsOn side layer twoParts.postings) := by
    have hall : Decimal.FitsExactly (twoParts.postings.map Posting.amount) :=
      ⟨2, by decide, by decide +kernel, by decide +kernel⟩
    exact hall.sublist (by decide +kernel) (List.filter_sublist.map _)
  exact ⟨(((validate_up_to_rounding twoParts.entries).2.2 hfits).1 (by decide +kernel)).2.2,
    ((validate_up_to_rounding offByAHair.entries).1 (by decide +kernel)).2.2,
    ((validate_up_to_rounding shortFee.entries).2.1 (.of .fee usdId) (dollars 3) (dollars 2)
      (by decide +kernel)).2.2⟩

open SmallLedger in
/-- **Rounding decides.** A list that is off passes, and one that balances exactly is refused. -/
theorem rounding_decides :
    (validate offByAHair.entries = .ok () ∧
      exactOn .debit (.of .base usdId) offByAHair.entries ≠
        exactOn .credit (.of .base usdId) offByAHair.entries) ∧
    (hairsFirstAndLast.entries ≠ [] ∧ (∀ e ∈ hairsFirstAndLast.entries, 0 < e.amount) ∧
      (∀ layer, exactOn .debit layer hairsFirstAndLast.entries =
        exactOn .credit layer hairsFirstAndLast.entries) ∧
      ∃ debits credits, validate hairsFirstAndLast.entries =
        .error (.error (.unbalanced (.of .base usdId) debits credits))) := by
  refine ⟨⟨by decide +kernel, by decide +kernel⟩, by decide, by decide +kernel, fun layer => ?_, ?_⟩
  · by_cases hlayer : layer = .of .base usdId
    · subst hlayer
      decide +kernel
    · have hlayers : hairsFirstAndLast.layers = [.of .base usdId] := by decide +kernel
      have hnone : ∀ side, amountsOn side layer hairsFirstAndLast.postings = [] :=
        amountsOn_eq_nil (by simpa [hlayers] using hlayer)
      exact congrArg (fun l => (l.map Decimal.units).sum)
        ((hnone .debit).trans (hnone .credit).symm)
  · exact ⟨⟨false, 10 ^ 28 + 1, 27, by decide, by decide⟩,
      ⟨false, 10 ^ 28, 27, by decide, by decide⟩, by decide +kernel⟩

end LayeredLedger
