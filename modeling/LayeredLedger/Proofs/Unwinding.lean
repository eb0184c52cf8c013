import LayeredLedger.Proofs.DoubleEntry
import LayeredLedger.Proofs.Footprint
import LayeredLedger.Proofs.LimitRules
import LayeredLedger.Proofs.Settlement

/-!
# Completion never gets stuck

What creation accepts, completion can finish: the strategy is found again, everything outside of
the base layers is taken back to the last unit, and the standard rules have nothing to ask. Only a
sum out of range can stop it. A direct transaction has nothing to complete.

* `IsCompletion.netOf_outside`: the net outside of the base layers is zero;
* `IsDraft.layer_of_completion`: where a completion posts;
* `IsDraft.evaluate_completion`: the standard rules pass it;
* **`completion_unwinds`**: completion succeeds, and unwinds all other layers.
-/

namespace LayeredLedger

/-! ## Layers of a completion -/

/-- Outside of the base layers, a completion takes back all that was posted. -/
theorem IsCompletion.netOf_outside {t c : Transaction} {strategy : Strategy}
    {plans : List EntryPlan} (hc : IsCompletion t strategy plans c) (x : Account) {layer : Layer}
    (h : layer.isInBand .base = false) : netOf x layer (t.postings ++ c.postings) = 0 := by
  have hsettled : netOf x layer (plans.flatMap fun p => p.settled t strategy) = 0 := by
    refine net_eq_zero _ _ fun q hq hlayer => ?_
    obtain ⟨p, -, hq⟩ := List.mem_flatMap.1 hq
    rw [← hlayer, (EntryPlan.mem_settled hq).2, EntryPlan.layer, Layer.isInBand_of] at h
    simp at h
  rw [hc.postings, netOf_append, netOf_append, hsettled]
  unfold netOf
  rw [net_opposite, net_filter_layer _ _ fun layer => !layer.isInBand .base, h]
  simp

namespace IsDraft

variable {s : LedgerService} {request : TransactionRequest} {chart : Chart} {t c : Transaction}
  {strategy : Strategy} {plans : List EntryPlan} (hd : IsDraft s request chart t strategy plans)

include hd

theorem legsOf_ne_nil {p : EntryPlan} (hp : p ∈ plans) (h : p.settled t strategy ≠ []) :
    strategy.legsOf p ≠ [] := by
  have hlegsOf := hd.legs p hp
  cases strategy with
  | direct => exact absurd rfl h
  | pendingInbound =>
    obtain ⟨asset, liability, -, -, hlegs⟩ := inboundLegs_eq_ok hlegsOf
    rw [hlegs]
    simp [intoBridge]
  | pendingBillPayment =>
    obtain ⟨asset, liability, -, -, hbill⟩ := billPaymentLegs_eq_ok hlegsOf
    generalize Strategy.pendingBillPayment.legsOf p = legs at hbill
    cases hbill with
    | amount => simp [intoBridge]
    | rebate => exact List.ne_nil_of_mem (recipientLeg_mem p asset liability _)
    | commission => exact List.ne_nil_of_mem (recipientLeg_mem p p.debit liability _)
    | plainCommission => exact List.ne_nil_of_mem (recipientLeg_mem p asset p.debit _)
    | none hamount hrebate hcommission =>
      exact absurd (EntryPlan.settled_other hamount hrebate hcommission) h

/-- A completion posts on the base layers of the currencies of the transaction, and on those of
its layers that are no base layers. -/
theorem layer_of_completion (ht : chart.IsTidy) (hc : IsCompletion t strategy plans c) {e : Entry}
    (he : e ∈ c.entries) : ∃ e' ∈ t.entries, e.layer = .of .base e'.account.currencyId ∨
      e.layer = e'.layer ∧ e'.layer.isInBand .base = false := by
  have hq : e.posting ∈ c.postings := List.mem_map_of_mem he
  change ∃ e' ∈ t.entries, e.posting.layer = _ ∨ e.posting.layer = _ ∧ _
  generalize e.posting = q at hq
  rw [hc.postings] at hq
  rcases List.mem_append.1 hq with hq | hq
  · obtain ⟨q', hq', rfl⟩ := List.mem_map.1 hq
    obtain ⟨hmem, hband⟩ := List.mem_filter.1 hq'
    obtain ⟨e', he', rfl⟩ := List.mem_map.1 hmem
    have hband : (!e'.layer.isInBand .base) = true := hband
    exact ⟨e', he', .inr ⟨rfl, by simpa using hband⟩⟩
  · obtain ⟨p, hp, hq⟩ := List.mem_flatMap.1 hq
    obtain ⟨x, hx⟩ := List.exists_mem_of_ne_nil _ (hd.legsOf_ne_nil hp (List.ne_nil_of_mem hq))
    refine ⟨_, hd.mem_entries hp hx, .inl ?_⟩
    have hid := ((hd.plan p hp).account (hd.isLegOf hp hx) ht).2.2.2
    change q.layer = .of .base x.account.currencyId
    rw [(EntryPlan.mem_settled hq).2, hid]
    rfl

theorem completion_ne_nil (ht : chart.IsTidy) (hne : t.entries ≠ []) (hs : strategy ≠ .direct)
    (hc : IsCompletion t strategy plans c) : c.entries ≠ [] := by
  have htouches := hd.touches_pending ht hne
  rw [decide_eq_true hs] at htouches
  obtain ⟨e, he, hpending⟩ := List.any_eq_true.1 htouches
  have hbase : (!e.layer.isInBand .base) = true := by
    obtain ⟨-, -, band, -, hlayer⟩ := hd.entry ht he
    rw [hlayer, Layer.isInBand_of] at hpending ⊢
    rw [of_decide_eq_true hpending]
    rfl
  have hmem : e.posting.opposite ∈ c.postings := by
    rw [hc.postings]
    exact List.mem_append_left _ (List.mem_map_of_mem
      (List.mem_filter.2 ⟨List.mem_map_of_mem he, hbase⟩))
  intro hnil
  rw [Transaction.postings, hnil] at hmem
  simp at hmem

/-! ## The verdict on a completion -/

/-- A completion posts on base layers and pending layers, and on no limit layers. -/
theorem completion_off_limits (hs : strategy ≠ .direct) {reference : String}
    (hbuilt : s.buildCompletion t reference = .ok c) (kind : LimitKind) {e : Entry}
    (he : e ∈ c.entries) : e.layer.isInBand kind.band = false := by
  obtain ⟨layers, settled, hlayers, -, hpostings, hsettled⟩ :=
    LedgerService.buildCompletion_eq_ok hbuilt
  have hq : e.posting ∈ c.postings := List.mem_map_of_mem he
  rw [hpostings] at hq
  obtain ⟨x, hx, hposting⟩ := List.mem_map.1 hq
  rw [← show x.layer = e.layer from congrArg Posting.layer hposting]
  rcases List.mem_append.1 hx with hx | hx
  · obtain ⟨e', he', rfl⟩ := List.mem_map.1 hx
    obtain ⟨-, band, hband, hlayer⟩ := hd.registers (List.mem_filter.1 he').1
    change e'.layer.isInBand _ = false
    rw [hlayer, Layer.isInBand_of]
    exact decide_eq_false (Strategy.band_ne_limit hs hband kind)
  · obtain ⟨e', -, hx⟩ := hsettled x hx
    rw [LedgerService.baseLayersOf_eq_ok hlayers] at hx
    obtain ⟨e'', -, -, hlayer⟩ := hx.exists_base
    rw [hlayer, Layer.isInBand_of]
    cases kind <;> rfl

/-- The standard rules pass a completion whose totals are in range, whatever the store says. -/
theorem evaluate_completion (hrules : s.rules = .standard s.currencies) (hs : strategy ≠ .direct)
    {lookup : BalanceLookup} (hpassed : s.rules.evaluate t lookup = .ok ()) {reference : String}
    (hbuilt : s.buildCompletion t reference = .ok c) {totals : Totals}
    (htotals : c.entries.foldlM addEntry ∅ = .ok totals) (lookup' : BalanceLookup) :
    s.rules.evaluate c lookup' = .ok () := by
  obtain ⟨tags, htags, -⟩ := bind_eq_ok.1 hpassed
  have hpair : pair? ("completes:" ++ t.detail) = some ("completes", Text.trim t.detail) :=
    pair?_append t.detail (by decide) (by decide) (by decide)
  obtain ⟨tags', htags'⟩ := ofTags_add (orError_eq_ok.1 htags) hpair (by decide)
  rw [← LedgerService.tags_of_buildCompletion hbuilt] at htags'
  rw [hrules] at htags' ⊢
  exact evaluate_standard htags' (LedgerService.buildCompletion_sidesMatch hd.sidesMatch hbuilt)
    htotals (fun kind e he => hd.completion_off_limits hs hbuilt kind he) lookup'

/-- Only a sum out of range stops a completion. -/
theorem complete_eq (hrules : s.rules = .standard s.currencies) (ht : chart.IsTidy)
    (hm : request.metadata.IsPlain) (hne : t.entries ≠ []) (hs : strategy ≠ .direct)
    {lookup : BalanceLookup} (hpassed : s.rules.evaluate t lookup = .ok ()) {reference : String}
    (hbuilt : s.buildCompletion t reference = .ok c) (hc : IsCompletion t strategy plans c)
    (hpos : ∀ q ∈ c.postings, 0 < q.amount) (lookup' : BalanceLookup) :
    s.complete t reference lookup' = match c.layerTotals with
      | .ok _ => (.ok (.completed c), t.tag Transaction.completedMark)
      | .error o => (.error (.overflow o), t) := by
  have hmatch : SidesMatch c.postings :=
    LedgerService.buildCompletion_sidesMatch hd.sidesMatch hbuilt
  have hvalid := validate_of_sidesMatch (hd.completion_ne_nil ht hne hs hc)
    (fun e he => hpos e.posting (List.mem_map_of_mem he)) hmatch
  rw [LedgerService.complete_of_not_completed (hd.isCompleted hm), Transaction.layerTotals]
  cases h : c.entries.foldlM addEntry ∅ with
  | error o =>
    rw [h] at hvalid
    rw [LedgerService.approve_completionDraft_of_invalid hbuilt hvalid]
    rfl
  | ok totals =>
    have hrun := hd.evaluate_completion hrules hs hpassed hbuilt h lookup'
    rw [h] at hvalid
    rw [LedgerService.approve_completionDraft.2 ⟨hbuilt, hvalid, hrun⟩]
    rfl

/-- A direct transaction has nothing to complete, with or without something to fall back on. -/
theorem complete_direct (ht : chart.IsTidy) (hm : request.metadata.IsPlain) (hne : t.entries ≠ [])
    (hs : strategy = .direct) (fallBack : Bool) (reference : String) (lookup : BalanceLookup) :
    { s with fallBack }.complete t reference lookup =
      (.error (.error (.notPending t.detail)), t) := by
  subst hs
  have hlayers : { s with fallBack }.baseLayersOf t = .ok t.readLayers := hd.baseLayersOf
  have hbuilt := LedgerService.buildCompletion_eq hlayers (hd.chooseStrategy_eq hm ht hne fallBack)
    reference
  have hsettle : ∀ completion, Strategy.direct.settle t t.readLayers completion =
      .error (.notPending t.detail) := fun _ => rfl
  rw [hsettle] at hbuilt
  rw [LedgerService.complete_of_not_completed (hd.isCompleted hm),
    LedgerService.approve_completionDraft_of_error hbuilt]

end IsDraft

/-! ## The main result -/

/-- **What creation accepts, completion can finish.** Under the standard rules, the strategy that
built a transaction that waits for completion builds its completion as well. That is what the
transaction is completed with, whatever the store answers, unless a sum of the completion is out
of range. On every layer outside of the base band, both transactions together net to zero for every
account, and the completion posts nowhere but on base layers of the transaction and on its other
layers. A direct transaction has nothing to complete and stays as it is, with or without something
to fall back on. -/
theorem completion_unwinds {s : LedgerService} {accounts : List Account}
    {request : TransactionRequest} {lookup : BalanceLookup} {t : Transaction}
    (hrules : s.rules = .standard s.currencies) (hcodes : CleanCodes accounts)
    (hplain : request.metadata.IsPlain)
    (hcreate : s.create request (.ofList accounts) lookup = .ok t) (reference : String) :
    (request.shape.pending = true → ∃ (strategy : Strategy) (c : Transaction),
      strategyFor? request.shape = some strategy ∧
      t.shape >>= chooseStrategy s.fallBack = .ok strategy ∧
      s.buildCompletion t reference = .ok c ∧
      (∀ lookup', s.complete t reference lookup' = match c.layerTotals with
        | .ok _ => (.ok (.completed c), t.tag Transaction.completedMark)
        | .error o => (.error (.overflow o), t)) ∧
      (∀ x layer, layer.isInBand .base = false → netOf x layer (t.postings ++ c.postings) = 0) ∧
      ∀ e ∈ c.entries, ∃ e' ∈ t.entries, e.layer = .of .base e'.account.currencyId ∨
        e.layer = e'.layer ∧ e'.layer.isInBand .base = false) ∧
    (request.shape.pending = false → ∀ fallBack lookup',
      { s with fallBack }.complete t reference lookup' =
        (.error (.error (.notPending t.detail)), t)) := by
  obtain ⟨hne, strategy, plans, hd⟩ := LedgerService.exists_isDraft_of_create hcreate
  obtain ⟨-, -, hpassed⟩ := LedgerService.create_eq_ok.1 hcreate
  have htidy := Chart.isTidy_ofList hcodes
  have htakes := strategyFor?_eq_some.1 hd.strategy_eq
  constructor
  · intro hpending
    have hs : strategy ≠ .direct := by
      rintro rfl
      simp [Strategy.takes, hpending] at htakes
    obtain ⟨c, hbuilt, hc, hpos⟩ := hd.exists_isCompletion hplain htidy hne hs reference
    exact ⟨strategy, c, hd.strategy_eq, hd.chooseStrategy_eq hplain htidy hne s.fallBack, hbuilt,
      hd.complete_eq hrules htidy hplain hne hs hpassed hbuilt hc hpos,
      fun x layer h => hc.netOf_outside x h,
      fun e he => hd.layer_of_completion htidy hc he⟩
  · intro hdirect fallBack lookup'
    have hs : strategy = .direct := by
      cases strategy <;> simp_all [Strategy.takes]
    exact hd.complete_direct htidy hplain hne hs fallBack reference lookup'

open SmallLedger in
/-- A bill payment that is completed while the store is silent, and a direct transfer. -/
theorem completion_unwinds_smallLedger :
    (∃ t c, service.create (request true .billPayment [entry .amount payer merchant 40,
        entry .commission expense wallet 2]) chart silent = .ok t ∧
      service.complete t "T2" silent =
        (.ok (.completed c), t.tag Transaction.completedMark) ∧
      netOf wallet (.of .pending usdId) (t.postings ++ c.postings) = 0) ∧
    ∃ t, service.create (request false .p2p [entry .amount payer wallet 40]) chart spent = .ok t ∧
      { service with fallBack := true }.complete t "T2" silent =
        (.error (.error (.notPending "T1")), t) := by
  constructor
  · obtain ⟨t, c', t', hcreate, hcompleted⟩ := exists_completed (by decide +kernel : settles
      (request true .billPayment
        [entry .amount payer merchant 40, entry .commission expense wallet 2]) = true)
    obtain ⟨hpending, -⟩ := completion_unwinds rfl (by decide +kernel : CleanCodes accounts)
      (by decide +kernel) hcreate "T2"
    obtain ⟨strategy, c, -, -, -, hcomplete, hnet, -⟩ := hpending rfl
    refine ⟨t, c, hcreate, ?_, hnet wallet (.of .pending usdId) (by decide)⟩
    have h := hcomplete silent
    rw [h] at hcompleted
    rw [h]
    cases htotals : c.layerTotals with
    | ok totals => rfl
    | error o => simp [htotals] at hcompleted
  · obtain ⟨t, hcreate, hdetail⟩ := map_eq_ok.1 (by decide +kernel : (service.create
      (request false .p2p [entry .amount payer wallet 40]) chart spent).map Transaction.detail =
        .ok "T1")
    obtain ⟨-, hdirect⟩ := completion_unwinds rfl (by decide +kernel : CleanCodes accounts)
      (by decide +kernel) hcreate "T2"
    refine ⟨t, hcreate, ?_⟩
    rw [hdirect rfl true silent, hdetail]

end LayeredLedger
