import LayeredLedger.Proofs.LayerSums

/-!
# What a report of movements explains

The pairing takes credits away one at a time, so no entry is lost and none is used twice: the
debits are those of the pairs and those that are left, and so are the credits. What is left could
not be paired any more. Hence of every amount and detail there are as many movements as there are
debits or credits of them, whichever is fewer.

* `perm_cons_eraseP`: taking the first fitting element out of a list;
* `IsPairing`, `isPairing_pairOff`: what holds of the pairs and of what is left;
* `Entry.worth`, `IsPairing.count_worth`: how many pairs there are of an amount and a detail;
* `LayerMovements.Explains`, `explains_of_layerMovements`: a layer of a report and its entries;
* **`report_explains`**: when there is a report, and what it holds.
-/

namespace LayeredLedger

/-! ## Pairing -/

theorem perm_cons_eraseP {α : Type} {p : α → Bool} {l : List α} {a : α} (h : l.find? p = some a) :
    l.Perm (a :: l.eraseP p) := by
  induction l with
  | nil => cases h
  | cons b l ih =>
    by_cases hb : p b = true
    · rw [List.find?_cons_of_pos hb] at h
      rw [List.eraseP_cons_of_pos hb, Option.some.inj h]
    · rw [List.find?_cons_of_neg hb] at h
      rw [List.eraseP_cons_of_neg hb]
      exact ((ih h).cons b).trans (.swap a b _)

/-- Pairs, debits that are left and credits that are free account for all debits and credits, and
no partners are apart. -/
structure IsPairing (debits credits : List Entry) (pairs : List (Entry × Entry))
    (left free : List Entry) : Prop where
  debits : (pairs.map Prod.fst ++ left).Perm debits
  credits : (pairs.map Prod.snd ++ free).Perm credits
  partners : ∀ p ∈ pairs, Partners p.1 p.2
  noneLeft : ∀ debit ∈ left, ∀ credit ∈ free, ¬Partners debit credit

theorem isPairing_pairOff (debits credits : List Entry) :
    IsPairing debits credits (pairOff debits credits).1 (pairOff debits credits).2.1
      (pairOff debits credits).2.2 := by
  induction debits generalizing credits with
  | nil => exact ⟨.nil, .refl _, by simp [pairOff], by simp [pairOff]⟩
  | cons debit debits ih =>
    rw [pairOff]
    cases hfind : credits.find? fun credit => Partners debit credit with
    | some credit =>
      have hrest := ih (credits.eraseP fun credit => Partners debit credit)
      refine ⟨hrest.debits.cons debit, ?_, ?_, hrest.noneLeft⟩
      · exact (hrest.credits.cons credit).trans (perm_cons_eraseP hfind).symm
      · exact List.forall_mem_cons.2 ⟨by simpa using List.find?_some hfind, hrest.partners⟩
    | none =>
      have hrest := ih credits
      refine ⟨?_, hrest.credits, hrest.partners, ?_⟩
      · exact List.perm_middle.trans (hrest.debits.cons debit)
      · -- the free credits are among those that the debit did not fit
        refine List.forall_mem_cons.2 ⟨fun credit hcredit => ?_, hrest.noneLeft⟩
        have hmem : credit ∈ credits :=
          hrest.credits.subset (List.mem_append_right _ hcredit)
        simpa using List.find?_eq_none.1 hfind credit hmem

/-! ## Counting -/

/-- What partners have in common: an amount, in units, and a detail. -/
def Entry.worth (e : Entry) : Int × String := (e.amount.units, e.detail)

theorem partners_iff {debit credit : Entry} :
    Partners debit credit ↔ credit.worth = debit.worth :=
  Prod.mk_inj.symm

namespace IsPairing

variable {debits credits left free : List Entry} {pairs : List (Entry × Entry)}
  (h : IsPairing debits credits pairs left free)

include h

theorem map_worth :
    (pairs.map Prod.snd).map Entry.worth = (pairs.map Prod.fst).map Entry.worth := by
  rw [List.map_map, List.map_map]
  exact List.map_congr_left fun p hp => partners_iff.1 (h.partners p hp)

/-- **There are as many pairs as can be**, of every amount and detail. -/
theorem count_worth (w : Int × String) : ((pairs.map Prod.fst).map Entry.worth).count w =
    min ((debits.map Entry.worth).count w) ((credits.map Entry.worth).count w) := by
  have hdebits := (h.debits.map Entry.worth).count_eq w
  have hcredits := (h.credits.map Entry.worth).count_eq w
  rw [List.map_append, List.count_append] at hdebits hcredits
  rw [h.map_worth] at hcredits
  have hnone : (left.map Entry.worth).count w = 0 ∨ (free.map Entry.worth).count w = 0 := by
    by_contra hboth
    simp only [not_or, List.count_eq_zero, not_not] at hboth
    obtain ⟨debit, hdebit, hw⟩ := List.mem_map.1 hboth.1
    obtain ⟨credit, hcredit, hw'⟩ := List.mem_map.1 hboth.2
    exact h.noneLeft debit hdebit credit hcredit (partners_iff.2 (hw'.trans hw.symm))
  omega

end IsPairing

/-! ## Reports -/

/-- An account, and an amount with a detail. -/
def Entry.line (e : Entry) : String × Int × String := (e.account.code, e.worth)

namespace Movement

def worth (m : Movement) : Int × String := (m.amount.units, m.detail)

/-- The account of a movement on a side, with what is moved. -/
def line (m : Movement) : Side → String × Int × String
  | .debit => (m.debitAccount, m.worth)
  | .credit => (m.creditAccount, m.worth)

end Movement

def Unmatched.line (u : Unmatched) : String × Int × String :=
  (u.account, u.amount.units, u.detail)

/-- A layer of a report explains the entries of the layer. -/
structure LayerMovements.Explains (m : LayerMovements) (entries : List Entry) : Prop where
  /-- Nothing is lost or invented on either side. -/
  lines : ∀ side, (m.movements.map (·.line side) ++
    (m.unmatched.filter fun u => u.side = side).map Unmatched.line).Perm
      ((entries.filter fun e => e.side = side).map Entry.line)
  /-- Every movement is from a debit and a credit that fit. -/
  paired : ∀ movement ∈ m.movements, ∃ debit ∈ entries, ∃ credit ∈ entries, debit.side = .debit ∧
    credit.side = .credit ∧ Partners debit credit ∧ movement = movementOf debit credit
  /-- There are as many movements as can be. -/
  maximal : ∀ w, (m.movements.map Movement.worth).count w =
    min (((entries.filter Entry.isDebit).map Entry.worth).count w)
      (((entries.filter Entry.isCredit).map Entry.worth).count w)
  /-- What is unmatched has no partner on the other side. -/
  noneLeft : ∀ u ∈ m.unmatched, ∀ u' ∈ m.unmatched, u.side = .debit → u'.side = .credit →
    ¬(u.amount.SameValue u'.amount ∧ u.detail = u'.detail)

section Explains

variable {entries left free : List Entry} {pairs : List (Entry × Entry)}
  (h : IsPairing (entries.filter Entry.isDebit) (entries.filter Entry.isCredit) pairs left free)

include h

theorem IsPairing.side_left : ∀ e ∈ left, e.side = .debit := fun _ he =>
  of_decide_eq_true (List.mem_filter.1 (h.debits.subset (List.mem_append_right _ he))).2

theorem IsPairing.side_free : ∀ e ∈ free, e.side = .credit := fun _ he =>
  of_decide_eq_true (List.mem_filter.1 (h.credits.subset (List.mem_append_right _ he))).2

theorem IsPairing.mem_entries {p : Entry × Entry} (hp : p ∈ pairs) :
    (p.1 ∈ entries ∧ p.1.side = .debit) ∧ p.2 ∈ entries ∧ p.2.side = .credit := by
  have hdebit := List.mem_filter.1
    (h.debits.subset (List.mem_append_left _ (List.mem_map_of_mem hp)))
  have hcredit := List.mem_filter.1
    (h.credits.subset (List.mem_append_left _ (List.mem_map_of_mem hp)))
  exact ⟨⟨hdebit.1, of_decide_eq_true hdebit.2⟩, hcredit.1, of_decide_eq_true hcredit.2⟩

/-- The unmatched entries of a side are those that the pairing leaves on it. -/
theorem IsPairing.unmatched_lines (side : Side) :
    (((left ++ free).map unmatchedEntry).filter fun u => u.side = side).map Unmatched.line =
      (match side with
        | .debit => left
        | .credit => free).map Entry.line := by
  have hside : (fun u : Unmatched => decide (u.side = side)) ∘ unmatchedEntry =
      fun e => decide (e.side = side) := rfl
  rw [List.filter_map, hside, List.map_map, List.filter_append]
  cases side with
  | debit =>
    have hfree : free.filter (fun e => e.side = .debit) = [] :=
      List.filter_eq_nil_iff.2 fun e he => by simp [h.side_free e he]
    rw [List.filter_eq_self.2 fun e he => decide_eq_true (h.side_left e he), hfree,
      List.append_nil]
    rfl
  | credit =>
    have hleft : left.filter (fun e => e.side = .credit) = [] :=
      List.filter_eq_nil_iff.2 fun e he => by simp [h.side_left e he]
    rw [hleft, List.filter_eq_self.2 fun e he => decide_eq_true (h.side_free e he),
      List.nil_append]
    rfl

theorem IsPairing.lines (side : Side) :
    ((pairs.map fun p => movementOf p.1 p.2).map (·.line side) ++
      (((left ++ free).map unmatchedEntry).filter fun u => u.side = side).map Unmatched.line).Perm
        ((entries.filter fun e => e.side = side).map Entry.line) := by
  rw [h.unmatched_lines, List.map_map]
  cases side with
  | debit =>
    have hlines := h.debits.map Entry.line
    rwa [List.map_append, List.map_map] at hlines
  | credit =>
    have hlines := h.credits.map Entry.line
    rw [List.map_append, List.map_map] at hlines
    -- the amount of a movement is that of its debit, which is worth the same
    have hcredit : pairs.map ((·.line .credit) ∘ fun p => movementOf p.1 p.2) =
        pairs.map (Entry.line ∘ Prod.snd) :=
      List.map_congr_left fun p hp =>
        congrArg (p.2.account.code, ·) (partners_iff.1 (h.partners p hp)).symm
    rwa [hcredit]

end Explains

theorem explains_of_layerMovements {layer : Layer} {entries : List Entry} {m : LayerMovements}
    (h : layerMovements layer entries = .ok m) : m.layer = layer ∧ m.Explains entries := by
  have hpairing := isPairing_pairOff (entries.filter Entry.isDebit) (entries.filter Entry.isCredit)
  unfold layerMovements at h
  generalize pairOff (entries.filter Entry.isDebit) (entries.filter Entry.isCredit) = result
    at h hpairing
  obtain ⟨pairs, left, free⟩ := result
  obtain ⟨⟨debits, credits⟩, -, h⟩ := bind_eq_ok.1 h
  obtain rfl := Except.ok.inj h
  refine ⟨rfl, hpairing.lines, fun movement hmovement => ?_, fun w => ?_, ?_⟩
  · obtain ⟨p, hp, rfl⟩ := List.mem_map.1 hmovement
    obtain ⟨⟨hdebit, hdside⟩, hcredit, hcside⟩ := hpairing.mem_entries hp
    exact ⟨p.1, hdebit, p.2, hcredit, hdside, hcside, hpairing.partners p hp, rfl⟩
  · have hcount := hpairing.count_worth w
    rwa [List.map_map] at hcount ⊢
  · intro u hu u' hu' hdebit hcredit ⟨hamount, hdetail⟩
    obtain ⟨e, he, rfl⟩ := List.mem_map.1 hu
    obtain ⟨e', he', rfl⟩ := List.mem_map.1 hu'
    have hleft : e ∈ left := (List.mem_append.1 he).resolve_right fun hfree =>
      Side.noConfusion (hdebit.symm.trans (hpairing.side_free e hfree))
    have hfree : e' ∈ free := (List.mem_append.1 he').resolve_left fun hleft =>
      Side.noConfusion (hcredit.symm.trans (hpairing.side_left e' hleft))
    exact hpairing.noneLeft e hleft e' hfree ⟨hamount.symm, hdetail.symm⟩

/-- There is a report if the sums of all sides are in range. -/
theorem exists_report_iff {t : Transaction} {label : String} :
    (∃ r, MovementReport.ofTransaction t label = .ok r) ↔
      ∀ side layer, ∃ sum, Decimal.sum (amountsOn side layer t.postings) = .ok sum := by
  have htotals := map_totals_ofTransaction t label
  constructor
  · rintro ⟨r, hr⟩ side layer
    rw [hr] at htotals
    obtain ⟨totals, hok, -⟩ := map_eq_ok.1 htotals.symm
    exact ⟨_, (layerSums_eq_ok.1 (layerSums_eq_at hok layer)).2 side⟩
  · intro hsums
    obtain ⟨totals, hok⟩ : ∃ totals, t.entries.foldlM addEntry ∅ = .ok totals :=
      exists_foldlM_addEntry fun side layer => by
        rw [Totals.on_at_empty]
        exact hsums side layer
    rw [Transaction.layerTotals, hok] at htotals
    obtain ⟨r, hr, -⟩ := map_eq_ok.1 htotals
    exact ⟨r, hr⟩

/-- **A report explains the whole transaction.** There is one if and only if the sums of all sides
are in range. It has every layer of the transaction once, lowest first, and on each of them it
accounts for all entries and pairs as many of them as can be. -/
theorem report_explains (t : Transaction) (label : String) :
    ((∃ r, MovementReport.ofTransaction t label = .ok r) ↔
      ∀ side layer, ∃ sum, Decimal.sum (amountsOn side layer t.postings) = .ok sum) ∧
    ∀ r, MovementReport.ofTransaction t label = .ok r →
      (r.layers.map LayerMovements.layer).Pairwise (·.value < ·.value) ∧
      (∀ layer, layer ∈ r.layers.map LayerMovements.layer ↔ ∃ e ∈ t.entries, e.layer = layer) ∧
      ∀ m ∈ r.layers, m.Explains (t.entries.filter (·.layer = m.layer)) := by
  refine ⟨exists_report_iff, fun r hr => ?_⟩
  obtain ⟨layers, hlayers, heq⟩ := bind_eq_ok.1 hr
  obtain rfl := Except.ok.inj heq
  obtain ⟨hmap, hof⟩ := mapM_eq_ok_inverse hlayers fun _ _ h => (explains_of_layerMovements h).1
  refine ⟨?_, fun layer => ?_, fun m hm => (explains_of_layerMovements (hof m hm)).2⟩
  · rw [hmap]
    exact Keyed.ascending _
  · rw [hmap]
    exact mem_layers

open SmallLedger in
/-- There is a report of a payment that is credited only once, and it explains every layer. -/
theorem report_explains_halfPaid : ∃ r, MovementReport.ofTransaction halfPaid "half" = .ok r ∧
    ∀ m ∈ r.layers, m.Explains (halfPaid.entries.filter (·.layer = m.layer)) := by
  obtain ⟨r, hr, -⟩ := map_eq_ok.1 (by decide +kernel :
    (MovementReport.ofTransaction halfPaid "half").map (fun _ => ()) = .ok ())
  exact ⟨r, hr, ((report_explains halfPaid "half").2 r hr).2.2⟩

open SmallLedger in
/-- There is no report of debits that add up to more than there are decimals for. -/
theorem report_overflows :
    MovementReport.ofTransaction largestTwice "twice" = .error .addition := by
  decide +kernel

end LayeredLedger
