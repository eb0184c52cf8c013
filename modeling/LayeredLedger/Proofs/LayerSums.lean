import LayeredLedger.Movement
import LayeredLedger.Proofs.InRange
import LayeredLedger.Proofs.SmallLedger
import LayeredLedger.Proofs.StandardVerdict

/-!
# Four ways to add up a layer

Debits and credits of a layer are added up in four places. Validation and the totals of a
transaction go through all entries once and keep the sums of all layers; the rule of double entry
and the report of movements go through the entries of one layer at a time. Rounded sums depend on
their order, but on a single layer the order is the same everywhere. So the four agree to the last
digit, and they overflow together.

* `layerSums`: the sums of one layer; `layerSums_eq_ok`, `error_of_layerSums`;
* `map_layer_of_foldlM_addEntry`: totals are kept for exactly the layers of the entries;
* `mapM_layerSums`, `map_totals_ofTransaction`: totals and reports, layer by layer;
* `run_doubleEntry_eq_ok_iff`, `isBalanced_ofTransaction`: the verdicts of the rule and of reports;
* **`totals_agree`**: the four places have the same sums and come to the same verdict.
-/

namespace LayeredLedger

/-! ## One layer -/

/-- The sums of the two sides of a layer. -/
def layerSums (entries : List Entry) (layer : Layer) : Except Overflow LayerTotals :=
  (sideTotals (entries.filter (·.layer = layer))).map fun (debits, credits) =>
    ⟨layer, debits, credits⟩

theorem layerSums_eq_ok {entries : List Entry} {layer : Layer} {t : LayerTotals} :
    layerSums entries layer = .ok t ↔ t.layer = layer ∧
      ∀ side, Decimal.sum (amountsOn side layer (entries.map Entry.posting)) = .ok (t.on side) := by
  obtain ⟨l, d, c⟩ := t
  have hsums : sideTotals (entries.filter (·.layer = layer)) = .ok (d, c) ↔
      ∀ side, Decimal.sum (amountsOn side layer (entries.map Entry.posting)) =
        .ok ((⟨l, d, c⟩ : LayerTotals).on side) := by
    rw [sideTotals_eq, foldlM_addToSide_eq_ok]
    exact ⟨fun h side => by cases side; exacts [h.1, h.2], fun h => ⟨h .debit, h .credit⟩⟩
  rw [← hsums, layerSums, map_eq_ok]
  constructor
  · rintro ⟨⟨d', c'⟩, h, heq⟩
    obtain ⟨rfl, rfl, rfl⟩ := LayerTotals.mk.inj heq
    exact ⟨rfl, h⟩
  · rintro ⟨rfl, h⟩
    exact ⟨_, h, rfl⟩

theorem error_of_addToSide {sums : Decimal × Decimal} {e : Entry} {o : Overflow}
    (h : addToSide sums e = .error o) : o = .addition := by
  unfold addToSide at h
  split at h <;> exact Decimal.error_of_add (map_eq_error.1 h)

theorem error_of_layerSums {entries : List Entry} {layer : Layer} {o : Overflow}
    (h : layerSums entries layer = .error o) : o = .addition := by
  obtain ⟨sums, e, -, hadd⟩ := exists_of_foldlM_eq_error (map_eq_error.1 h)
  exact error_of_addToSide hadd

/-! ## All layers -/

theorem mem_layers {t : Transaction} {layer : Layer} :
    layer ∈ t.layers ↔ ∃ e ∈ t.entries, e.layer = layer := by
  rw [Transaction.layers, Keyed.mem_ofList fun _ _ => Layer.ext_value, List.mem_map]

/-- A layer without entries has no amounts. -/
theorem amountsOn_eq_nil {t : Transaction} {layer : Layer} (h : layer ∉ t.layers) (side : Side) :
    amountsOn side layer t.postings = [] := by
  have hnone : ∀ p ∈ t.postings, ¬(p.side = side ∧ p.layer = layer) := by
    intro p hp hon
    obtain ⟨e, he, rfl⟩ := List.mem_map.1 hp
    exact h (mem_layers.2 ⟨e, he, hon.2⟩)
  rw [amountsOn, List.filter_eq_nil_iff.2 (by simpa using hnone)]
  rfl

theorem layerSums_of_notMem {t : Transaction} {layer : Layer} (h : layer ∉ t.layers) :
    layerSums t.entries layer = .ok ⟨layer, 0, 0⟩ := by
  refine layerSums_eq_ok.2 ⟨rfl, fun side => ?_⟩
  have hnil : amountsOn side layer (t.entries.map Entry.posting) = [] := amountsOn_eq_nil h side
  rw [hnil]
  cases side <;> rfl

theorem map_layer_of_addEntry {totals next : Totals} {e : Entry}
    (h : addEntry totals e = .ok next) : next.toList.map LayerTotals.layer =
      insertBy Layer.value e.layer (totals.toList.map LayerTotals.layer) := by
  obtain ⟨t, ht, rfl⟩ := map_eq_ok.1 h
  have hlayer : t.layer = e.layer := (LayerTotals.on_add ht).1.trans (Totals.layer_at _ _)
  rw [← hlayer]
  exact map_insertBy (fun _ => rfl) t totals.toList

/-- Totals are kept for the layers of the entries and no others. -/
theorem map_layer_of_foldlM_addEntry {entries : List Entry} {totals totals' : Totals}
    {layers : Keyed Layer.value} (h : entries.foldlM addEntry totals = .ok totals')
    (hlayers : totals.toList.map LayerTotals.layer = layers.toList) :
    totals'.toList.map LayerTotals.layer =
      ((entries.map Entry.layer).foldl (fun s a => s.insert a) layers).toList := by
  induction entries generalizing totals layers with
  | nil =>
    obtain rfl := Except.ok.inj h
    exact hlayers
  | cons e entries ih =>
    rw [List.foldlM_cons] at h
    obtain ⟨next, hnext, h⟩ := bind_eq_ok.1 h
    rw [List.map_cons, List.foldl_cons]
    refine ih h ?_
    rw [map_layer_of_addEntry hnext, hlayers]
    rfl

section Totals

variable {t : Transaction} {totals : Totals} (h : t.entries.foldlM addEntry ∅ = .ok totals)

include h

theorem map_layer_totals : totals.toList.map LayerTotals.layer = t.layers :=
  map_layer_of_foldlM_addEntry h rfl

theorem layerSums_eq_at (layer : Layer) : layerSums t.entries layer = .ok (totals.at layer) := by
  refine layerSums_eq_ok.2 ⟨Totals.layer_at totals layer, fun side => ?_⟩
  have hsum := foldlM_addEntry h side layer
  rwa [Totals.on_at_empty] at hsum

end Totals

/-- Totals are in range if the sums of all layers are. -/
theorem exists_totals {t : Transaction} (h : ∀ layer ∈ t.layers, ∃ s, layerSums t.entries layer =
    .ok s) : ∃ totals, t.entries.foldlM addEntry ∅ = .ok totals := by
  refine exists_foldlM_addEntry fun side layer => ?_
  obtain ⟨s, hs⟩ : ∃ s, layerSums t.entries layer = .ok s := by
    by_cases hlayer : layer ∈ t.layers
    · exact h layer hlayer
    · exact ⟨_, layerSums_of_notMem hlayer⟩
  rw [Totals.on_at_empty]
  exact ⟨_, (layerSums_eq_ok.1 hs).2 side⟩

/-- **The totals of a transaction are the sums of its layers**, one layer at a time. -/
theorem mapM_layerSums (t : Transaction) : t.layers.mapM (layerSums t.entries) = t.layerTotals := by
  cases h : t.entries.foldlM addEntry ∅ with
  | ok totals =>
    rw [Transaction.layerTotals, h, ← map_layer_totals h]
    refine mapM_eq_ok_iff.2 (List.forall₂_map_left_iff.2 (List.forall₂_same.2 fun s hs => ?_))
    rw [layerSums_eq_at h, Totals.at_of_mem hs]
  | error o =>
    obtain rfl := error_of_foldlM_addEntry h
    have hnone : ¬∃ l, t.layers.mapM (layerSums t.entries) = .ok l := fun hall => by
      obtain ⟨totals, htotals⟩ := exists_totals (exists_mapM_eq_ok_iff.1 hall)
      cases h.symm.trans htotals
    rw [Transaction.layerTotals, h]
    cases hmap : t.layers.mapM (layerSums t.entries) with
    | ok l => exact absurd ⟨l, hmap⟩ hnone
    | error o =>
      obtain ⟨layer, -, hlayer⟩ := exists_of_mapM_eq_error hmap
      rw [error_of_layerSums hlayer]
      rfl

/-! ## Reports -/

/-- The totals of a layer in a report. -/
def LayerMovements.totals (m : LayerMovements) : LayerTotals :=
  ⟨m.layer, m.totalDebits, m.totalCredits⟩

theorem map_totals_layerMovements (entries : List Entry) (layer : Layer) :
    (layerMovements layer (entries.filter (·.layer = layer))).map LayerMovements.totals =
      layerSums entries layer := by
  unfold layerMovements layerSums
  cases sideTotals (entries.filter (·.layer = layer)) <;> rfl

/-- **The totals in a report are the totals of the transaction.** -/
theorem map_totals_ofTransaction (t : Transaction) (label : String) :
    (MovementReport.ofTransaction t label).map (fun r => r.layers.map LayerMovements.totals) =
      t.layerTotals := by
  have hsums : layerSums t.entries = fun layer =>
      (layerMovements layer (t.entries.filter (·.layer = layer))).map LayerMovements.totals :=
    funext fun layer => (map_totals_layerMovements t.entries layer).symm
  rw [← mapM_layerSums, hsums, ← map_mapM]
  unfold MovementReport.ofTransaction
  cases t.layers.mapM fun layer => layerMovements layer (t.entries.filter (·.layer = layer)) <;> rfl

/-! ## Verdicts -/

section Verdicts

variable {t : Transaction} {totals : Totals} (h : t.entries.foldlM addEntry ∅ = .ok totals)

include h

/-- Double entry on layers that hold all entries passes what balances. -/
theorem run_doubleEntry_eq_ok_iff {r : CurrencyRegistry}
    (hlayers : ∀ layer ∈ t.layers, layer ∈ r.layers Band.all) (tags : TagMap)
    (lookup : BalanceLookup) :
    (Registration.forAll doubleEntry (r.layers Band.all)).run t tags lookup = .ok () ↔
      totals.unbalanced? = none := by
  have hsum (layer : Layer) (side : Side) :
      Decimal.sum (amountsOn side layer t.postings) = .ok ((totals.at layer).on side) :=
    (layerSums_eq_ok.1 (layerSums_eq_at h layer)).2 side
  rw [run_doubleEntry_eq fun layer _ side => ⟨_, hsum layer side⟩, verdictOf_eq_ok_iff,
    CurrencyRegistry.imbalance?_eq_none_iff]
  simp only [Transaction.total, sumOf_eq (hsum _ _)]
  constructor
  · intro hall
    refine Totals.unbalanced?_eq_none_iff_toList.2 fun l hl => ?_
    have hlayer : l.layer ∈ t.layers := map_layer_totals h ▸ List.mem_map_of_mem hl
    have hsame := hall l.layer (hlayers l.layer hlayer)
    rw [Totals.at_of_mem hl] at hsame
    exact decide_eq_true hsame
  · exact fun hnone layer _ => Totals.unbalanced?_eq_none_iff.1 hnone layer

theorem isBalanced_ofTransaction (label : String) :
    ∃ report, MovementReport.ofTransaction t label = .ok report ∧
      (report.isBalanced = true ↔ totals.unbalanced? = none) := by
  have htotals := map_totals_ofTransaction t label
  rw [Transaction.layerTotals, h] at htotals
  obtain ⟨report, hreport, hlayers⟩ := map_eq_ok.1 htotals
  refine ⟨report, hreport, ?_⟩
  rw [Totals.unbalanced?_eq_none_iff_toList, ← hlayers, List.forall_mem_map,
    MovementReport.isBalanced, List.all_eq_true]
  rfl

end Verdicts

/-- **All balance computations agree.** On amounts above zero, validation, double entry and the
report of movements add up the sums that the totals of a transaction hold, or all of them
overflow. So they come to one verdict wherever the sums are in range and the layers are those of a
registry, and validation reports the lowest layer that does not balance. -/
theorem totals_agree {t : Transaction} (hpos : ∀ e ∈ t.entries, 0 < e.amount) :
    (t.entries.foldlM addValidEntry ∅).map Keyed.toList = orOverflow t.layerTotals ∧
    (∀ layers tags lookup ctx,
      (Registration.forAll doubleEntry layers).context? t tags lookup = some ctx →
        t.layers.mapM (layerSums ctx.entries) = t.layerTotals ∧
        ∀ layer, layer ∉ t.layers → layerSums ctx.entries layer = .ok ⟨layer, 0, 0⟩) ∧
    (∀ label, (MovementReport.ofTransaction t label).map
      (fun r => r.layers.map LayerMovements.totals) = t.layerTotals) ∧
    ∀ (r : CurrencyRegistry) (totals : List LayerTotals), t.entries ≠ [] →
      (∀ layer ∈ t.layers, layer ∈ r.layers Band.all) → t.layerTotals = .ok totals →
        (validate t.entries = .ok () ↔ ∀ l ∈ totals, l.isBalanced = true) ∧
        (∀ tags lookup,
          (Registration.forAll doubleEntry (r.layers Band.all)).run t tags lookup = .ok () ↔
            ∀ l ∈ totals, l.isBalanced = true) ∧
        (∀ label, ∃ report, MovementReport.ofTransaction t label = .ok report ∧
          (report.isBalanced = true ↔ ∀ l ∈ totals, l.isBalanced = true)) ∧
        ((∃ l ∈ totals, l.isBalanced = false) → ∃ l ∈ totals, l.isBalanced = false ∧
          (∀ l' ∈ totals, l'.layer.value < l.layer.value → l'.isBalanced = true) ∧
          validate t.entries = .error (.error (.unbalanced l.layer l.debits l.credits))) := by
  refine ⟨?_, ?_, map_totals_ofTransaction t, ?_⟩
  · rw [foldlM_addValidEntry hpos, Transaction.layerTotals]
    cases t.entries.foldlM addEntry ∅ <;> rfl
  · intro layers tags lookup ctx hctx
    obtain ⟨ctx', hctx', hentries, -⟩ := context?_forAll doubleEntry layers t tags lookup
    obtain rfl := Option.some.inj (hctx.symm.trans hctx')
    rw [hentries]
    exact ⟨mapM_layerSums t, fun layer => layerSums_of_notMem⟩
  · intro r totals hne hlayers htotals
    obtain ⟨kept, hkept, rfl⟩ := map_eq_ok.1 htotals
    have hvalidate := validate_of_totals hne hpos hkept
    simp only [← Totals.unbalanced?_eq_none_iff_toList]
    refine ⟨?_, run_doubleEntry_eq_ok_iff hkept hlayers, isBalanced_ofTransaction hkept, ?_⟩
    · rw [hvalidate]
      cases Totals.unbalanced? kept <;> simp
    · rintro ⟨l, hl, hunbalanced⟩
      cases hreported : Totals.unbalanced? kept with
      | none =>
        have hbalanced := Totals.unbalanced?_eq_none_iff_toList.1 hreported l hl
        exact absurd (hunbalanced.symm.trans hbalanced) Bool.false_ne_true
      | some e =>
        rw [hreported] at hvalidate
        obtain ⟨l, hl, rfl, hunbalanced, hlower⟩ := Totals.of_unbalanced?_eq_some hreported
        exact ⟨l, hl, hunbalanced, hlower, hvalidate⟩

open SmallLedger in
/-- The totals, validation, the report and the rule of double entry all find the fee that is paid
short. -/
theorem totals_agree_shortFee :
    shortFee.layerTotals = .ok [⟨.of .base usdId, dollars 5, dollars 5⟩,
      ⟨.of .fee usdId, dollars 3, dollars 2⟩] ∧
    validate shortFee.entries =
      .error (.error (.unbalanced (.of .fee usdId) (dollars 3) (dollars 2))) ∧
    (∃ report, MovementReport.ofTransaction shortFee "fee" = .ok report ∧
      report.isBalanced = false) ∧
    ∀ tags lookup, (Registration.forAll doubleEntry (currencies.layers Band.all)).run shortFee tags
      lookup ≠ .ok () := by
  have hpos : ∀ e ∈ shortFee.entries, 0 < e.amount := by decide +kernel
  have htotals : shortFee.layerTotals = .ok [⟨.of .base usdId, dollars 5, dollars 5⟩,
      ⟨.of .fee usdId, dollars 3, dollars 2⟩] := by decide +kernel
  have hlayers : ∀ layer ∈ shortFee.layers, layer ∈ currencies.layers Band.all := by decide +kernel
  obtain ⟨-, -, -, hverdicts⟩ := totals_agree hpos
  obtain ⟨-, hrun, hreport, hlowest⟩ := hverdicts currencies _ (by decide) hlayers htotals
  have hnot : ¬∀ l ∈ [LayerTotals.mk (.of .base usdId) (dollars 5) (dollars 5),
      ⟨.of .fee usdId, dollars 3, dollars 2⟩], l.isBalanced = true := by decide +kernel
  refine ⟨htotals, ?_, ?_, fun tags lookup hok => hnot ((hrun tags lookup).1 hok)⟩
  · obtain ⟨l, hl, hunbalanced, -, hvalidate⟩ := hlowest (by decide +kernel)
    have hfee : l = ⟨.of .fee usdId, dollars 3, dollars 2⟩ := by
      rcases List.mem_cons.1 hl with rfl | hl
      · exact absurd hunbalanced (by decide +kernel)
      · exact List.mem_singleton.1 hl
    rw [hvalidate, hfee]
  · obtain ⟨report, hok, hbalanced⟩ := hreport "fee"
    exact ⟨report, hok, Bool.eq_false_iff.2 fun h => hnot (hbalanced.1 h)⟩

end LayeredLedger
