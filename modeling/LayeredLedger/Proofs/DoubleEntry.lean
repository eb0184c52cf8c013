import LayeredLedger.Proofs.Draft
import LayeredLedger.Proofs.Operations
import LayeredLedger.Proofs.SmallLedger
import LayeredLedger.Proofs.Totals

/-!
# Double entry

Legs come in pairs: an amount on one side of a layer, and the same amount on the other side of
the same layer. So the two sides of a layer hold the same amounts in the same order, and no
rounding of sums can hide that something is missing.

* legs of requests, settlements, resets and reversals: all of them match;
* `build_sidesMatch`, `buildCompletion_sidesMatch`, `reset_sidesMatch`, `SidesMatch.reversal`: so
  do the transactions made of them;
* `Transaction.validate_reversal`: what takes back a valid transaction is valid;
* **`service_doubleEntry`**: everything the service returns is double entry, and no validation on
  the way ever finds a layer unbalanced.
-/

namespace LayeredLedger

/-- The legs match. -/
abbrev LegsMatch (legs : List EntrySpec) : Prop := SidesMatch (legs.map EntrySpec.posting)

namespace LegsMatch

theorem append {legs legs' : List EntrySpec} (h : LegsMatch legs) (h' : LegsMatch legs') :
    LegsMatch (legs ++ legs') := by
  rw [LegsMatch, List.map_append]
  exact SidesMatch.append h h'

theorem flatten {lists : List (List EntrySpec)} (h : ∀ legs ∈ lists, LegsMatch legs) :
    LegsMatch lists.flatten := by
  rw [LegsMatch, List.map_flatten]
  refine SidesMatch.flatten fun ps hps => ?_
  obtain ⟨legs, hlegs, rfl⟩ := List.mem_map.1 hps
  exact h legs hlegs

theorem flatten_mapM {ε α : Type} {f : α → Except ε (List EntrySpec)} {l : List α}
    {lists : List (List EntrySpec)} (h : l.mapM f = .ok lists)
    (hf : ∀ x legs, f x = .ok legs → LegsMatch legs) : LegsMatch lists.flatten := by
  refine flatten fun legs hlegs => ?_
  obtain ⟨x, -, hx⟩ := exists_of_mem_mapM h hlegs
  exact hf x legs hx

end LegsMatch

/-! ## Legs of requests -/

theorem transferLegs_match (p : EntryPlan) (layer : Layer) : LegsMatch (transferLegs p layer) :=
  SidesMatch.pair .debit p.debit p.credit p.amount layer

theorem feeLegs_match (p : EntryPlan) : LegsMatch (feeLegs p) := by
  unfold feeLegs
  split
  · exact SidesMatch.pair .debit p.debit p.credit p.amount (p.layer .fee)
  · exact SidesMatch.nil

theorem usageOn_match (p : EntryPlan) (bridge : Account) (layer : Layer) :
    LegsMatch (usageOn p bridge layer) :=
  SidesMatch.pair .debit bridge p.debit p.amount layer

theorem usageLegs_match (p : EntryPlan) : LegsMatch (usageLegs p) := by
  unfold usageLegs
  split
  · cases p.assetBridge? with
    | none => exact SidesMatch.nil
    | some bridge => exact (usageOn_match p bridge _).append (usageOn_match p bridge _)
  · exact SidesMatch.nil

theorem directLegs_match (p : EntryPlan) : LegsMatch (directLegs p) :=
  ((transferLegs_match p _).append (feeLegs_match p)).append (usageLegs_match p)

theorem intoBridge_match (p : EntryPlan) (liability : Account) (tags : Tags) :
    LegsMatch (intoBridge p liability tags) :=
  SidesMatch.pair .debit p.debit liability p.amount (p.layer .base)

theorem pendingLegs_match (p : EntryPlan) (asset liability : Account) (tags? : Option Tags) :
    LegsMatch (pendingLegs p asset liability tags?) := by
  unfold pendingLegs
  cases p.credit.side with
  | credit =>
    exact (SidesMatch.pair .debit asset liability p.amount (p.layer .pending)).append
      (SidesMatch.pair .debit liability p.credit p.amount (p.layer .pending))
  | debit => exact SidesMatch.pair .debit p.credit liability p.amount (p.layer .pending)

theorem BillLegs.legsMatch {p : EntryPlan} {asset liability : Account} {legs : List EntrySpec}
    (h : BillLegs p asset liability legs) : LegsMatch legs := by
  cases h with
  | amount => exact (intoBridge_match p liability _).append (pendingLegs_match p asset liability _)
  | rebate => exact pendingLegs_match p asset liability _
  | commission => exact pendingLegs_match p p.debit liability _
  | plainCommission => exact pendingLegs_match p asset p.debit _
  | none => exact SidesMatch.nil

theorem Strategy.legs_match {strategy : Strategy} {p : EntryPlan} {legs : List EntrySpec}
    (h : strategy.legs p = .ok legs) : LegsMatch legs := by
  cases strategy with
  | direct =>
    obtain rfl := Except.ok.inj h
    exact directLegs_match p
  | pendingInbound =>
    obtain ⟨asset, liability, -, -, rfl⟩ := inboundLegs_eq_ok h
    exact (intoBridge_match p liability _).append (pendingLegs_match p asset liability _)
  | pendingBillPayment =>
    obtain ⟨asset, liability, -, -, hbill⟩ := billPaymentLegs_eq_ok h
    exact hbill.legsMatch

/-! ## Legs of settlements -/

theorem unwindSpecs_match {t : Transaction} (ht : SidesMatch t.postings) (layers : BaseLayers) :
    LegsMatch (unwindSpecs t layers) := by
  have h := (ht.filter_layer fun layer => decide (layer ∈ unwoundLayers layers)).opposite
  rw [Transaction.postings, List.filter_map, List.map_map] at h
  rw [LegsMatch, unwindSpecs, Transaction.reversalSpecs, List.map_map]
  exact h

theorem payOut_match {t : Transaction} {layers : BaseLayers} {e : Entry} {legs : List EntrySpec}
    (h : payOut t layers e = .ok legs) : LegsMatch legs := by
  unfold payOut at h
  split at h
  · obtain rfl := Except.ok.inj h
    exact SidesMatch.nil
  · obtain ⟨a, -, h⟩ := bind_eq_ok.1 h
    obtain ⟨layer, -, h⟩ := bind_eq_ok.1 h
    obtain rfl := Except.ok.inj h
    exact SidesMatch.pair .credit a e.account e.amount layer

theorem collect_match {t : Transaction} {layers : BaseLayers} {e : Entry} {legs : List EntrySpec}
    (h : collect t layers e = .ok legs) : LegsMatch legs := by
  unfold collect at h
  split at h
  · obtain rfl := Except.ok.inj h
    exact SidesMatch.nil
  · obtain ⟨a, -, h⟩ := bind_eq_ok.1 h
    obtain ⟨bridge, -, h⟩ := bind_eq_ok.1 h
    obtain ⟨layer, -, h⟩ := bind_eq_ok.1 h
    obtain rfl := Except.ok.inj h
    exact SidesMatch.pair .debit a bridge e.amount layer

theorem inboundSettlement_match {t : Transaction} {layers : BaseLayers} {legs : List EntrySpec}
    (h : inboundSettlement t layers = .ok legs) : LegsMatch legs := by
  obtain ⟨paid, hpaid, h⟩ := bind_eq_ok.1 h
  obtain ⟨collected, hcollected, h⟩ := bind_eq_ok.1 h
  obtain rfl := Except.ok.inj h
  rw [List.flatten_append]
  exact (LegsMatch.flatten_mapM hpaid fun _ _ => payOut_match).append
    (LegsMatch.flatten_mapM hcollected fun _ _ => collect_match)

theorem billMovement_match (e : Entry) (kind : EntryKind) (a : Account) (layer : Layer) :
    LegsMatch (billMovement e kind a layer) := by
  cases kind with
  | amount => exact SidesMatch.pair .debit e.account a e.amount layer
  | rebate => exact SidesMatch.pair .debit a e.account e.amount layer
  | commission => exact SidesMatch.pair .debit a e.account e.amount layer
  | fee => exact SidesMatch.nil
  | other name => exact SidesMatch.nil

theorem settleLeg_match {t : Transaction} {layers : BaseLayers} {e : Entry}
    {legs : List EntrySpec} (h : settleLeg t layers e = .ok legs) : LegsMatch legs := by
  unfold settleLeg at h
  split at h
  · obtain rfl := Except.ok.inj h
    exact SidesMatch.nil
  split at h
  · cases h
  split at h
  · obtain rfl := Except.ok.inj h
    exact SidesMatch.nil
  · obtain ⟨layer, -, h⟩ := bind_eq_ok.1 h
    obtain rfl := Except.ok.inj h
    exact billMovement_match e _ _ layer

theorem billSettlement_match {t : Transaction} {layers : BaseLayers} {legs : List EntrySpec}
    (h : billSettlement t layers = .ok legs) : LegsMatch legs := by
  obtain ⟨settled, hsettled, h⟩ := bind_eq_ok.1 h
  obtain rfl := Except.ok.inj h
  exact LegsMatch.flatten_mapM hsettled fun _ _ => settleLeg_match

theorem Strategy.settlement_match {strategy : Strategy} {t : Transaction} {layers : BaseLayers}
    {legs : List EntrySpec} (ht : SidesMatch t.postings)
    (h : strategy.settlement t layers = .ok legs) : LegsMatch legs := by
  cases strategy with
  | direct => cases h
  | pendingInbound =>
    obtain ⟨settled, hsettled, h⟩ := bind_eq_ok.1 h
    obtain rfl := Except.ok.inj h
    exact (unwindSpecs_match ht layers).append (inboundSettlement_match hsettled)
  | pendingBillPayment =>
    obtain ⟨settled, hsettled, h⟩ := bind_eq_ok.1 h
    obtain rfl := Except.ok.inj h
    exact (unwindSpecs_match ht layers).append (billSettlement_match hsettled)

/-! ## Legs of resets -/

theorem usageReset_match {chart : Chart} {a : Account} {layer : Layer} {usage : Decimal}
    {legs : List EntrySpec} (h : LedgerService.usageReset chart a layer usage = .ok legs) :
    LegsMatch legs := by
  unfold LedgerService.usageReset at h
  split at h
  · obtain rfl := Except.ok.inj h
    exact SidesMatch.nil
  split at h
  · cases h
  · rename_i bridge _
    obtain rfl := Except.ok.inj h
    exact SidesMatch.pair (resetSide a.side usage) a bridge usage.abs layer

namespace LedgerService

variable {s : LedgerService} {chart : Chart} {journal : JournalId} {lookup : BalanceLookup}
  {reference : String}

theorem resetSpecs_match {a : Account} {legs : List EntrySpec}
    (h : s.resetSpecs journal chart lookup a = .ok legs) : LegsMatch legs := by
  obtain ⟨id, -, h⟩ := bind_eq_ok.1 h
  obtain ⟨answer, -, h⟩ := bind_eq_ok.1 h
  cases answer with
  | error e => cases h
  | ok usage => exact usageReset_match (orError_eq_ok.1 h)

theorem registeredId_ne_unbalanced {a : Account} {layer : Layer} {debits credits : Decimal} :
    s.registeredId a ≠ .error (.unbalanced layer debits credits) := by
  unfold registeredId CurrencyRegistry.idOf
  cases s.currencies.id? a.currency with
  | none => simp
  | some id =>
    dsimp only
    split <;> simp

/-- The accounts of a reset fail for want of a number, a balance or a bridge. -/
theorem resetSpecs_ne_unbalanced {a : Account} {layer : Layer} {debits credits : Decimal} :
    s.resetSpecs journal chart lookup a ≠ .error (.error (.unbalanced layer debits credits)) := by
  intro h
  rcases bind_eq_error.1 h with h | ⟨id, -, h⟩
  · obtain ⟨e, he, heq⟩ := orError_eq_error.1 h
    obtain rfl : _ = e := Failure.error.inj heq
    exact registeredId_ne_unbalanced he
  rcases bind_eq_error.1 h with h | ⟨answer, -, h⟩
  · obtain ⟨o, -, heq⟩ := orOverflow_eq_error.1 h
    cases heq
  cases answer with
  | error e => cases h
  | ok usage =>
    obtain ⟨e, he, heq⟩ := orError_eq_error.1 h
    obtain rfl : _ = e := Failure.error.inj heq
    unfold usageReset at he
    split at he
    · cases he
    split at he <;> cases he

end LedgerService

/-! ## Transactions -/

theorem Transaction.post_sidesMatch {t t' : Transaction} {legs : List EntrySpec}
    (ht : SidesMatch t.postings) (hl : LegsMatch legs) (h : t.post legs = .ok t') :
    SidesMatch t'.postings := by
  obtain ⟨-, rfl⟩ := Transaction.post_eq_ok.1 h
  rw [Transaction.postings, List.map_append, Transaction.postings_entryOf]
  exact ht.append hl

theorem Transaction.start_sidesMatch (journal : JournalId) (detail : String) (tags : Tags) :
    SidesMatch (start journal detail tags).postings :=
  SidesMatch.nil

theorem Transaction.post_ne_unbalanced {t : Transaction} {legs : List EntrySpec} {layer : Layer}
    {debits credits : Decimal} : t.post legs ≠ .error (.unbalanced layer debits credits) := by
  unfold post checkAmounts
  cases firstNotPositive? legs <;> simp

theorem IsDraft.sidesMatch {s : LedgerService} {request : TransactionRequest} {chart : Chart}
    {t : Transaction} {strategy : Strategy} {plans : List EntryPlan}
    (h : IsDraft s request chart t strategy plans) : SidesMatch t.postings := by
  rw [h.postings, List.flatMap_def]
  refine SidesMatch.flatten fun ps hps => ?_
  obtain ⟨p, hp, rfl⟩ := List.mem_map.1 hps
  exact Strategy.legs_match (h.legs p hp)

theorem Transaction.postings_reversal (t : Transaction) (reference : String) :
    (t.reversal reference).postings = t.postings.map Posting.opposite := by
  rw [postings, postings, reversal, List.map_map, List.map_map]
  rfl

theorem SidesMatch.reversal {t : Transaction} (ht : SidesMatch t.postings) (reference : String) :
    SidesMatch (t.reversal reference).postings := by
  rw [Transaction.postings_reversal]
  exact ht.opposite

/-- What takes back a valid transaction is valid: its debits add up as the credits of the
transaction do. -/
theorem Transaction.validate_reversal {t : Transaction} (h : validate t.entries = .ok ())
    (reference : String) : validate (t.reversal reference).entries = .ok () := by
  obtain ⟨hne, hpos, hbalances⟩ := validate_eq_ok_iff.1 h
  refine validate_eq_ok_iff.2 ⟨by simpa [reversal] using hne, by simpa [reversal] using hpos, ?_⟩
  intro layer
  change BalancesOn (t.reversal reference).postings layer
  rw [postings_reversal]
  exact (hbalances layer).opposite

namespace LedgerService

variable {s : LedgerService} {chart : Chart} {lookup : BalanceLookup} {reference : String}

theorem build_sidesMatch {request : TransactionRequest} {t : Transaction}
    (h : s.build request chart = .ok t) : SidesMatch t.postings := by
  obtain ⟨strategy, plans, hd⟩ := exists_isDraft h
  exact hd.sidesMatch

theorem buildCompletion_sidesMatch {t c : Transaction} (ht : SidesMatch t.postings)
    (h : s.buildCompletion t reference = .ok c) : SidesMatch c.postings := by
  obtain ⟨layers, -, h⟩ := bind_eq_ok.1 h
  obtain ⟨shape, -, h⟩ := bind_eq_ok.1 h
  obtain ⟨strategy, -, h⟩ := bind_eq_ok.1 h
  obtain ⟨legs, hlegs, h⟩ := bind_eq_ok.1 h
  exact Transaction.post_sidesMatch (Transaction.start_sidesMatch _ _ _)
    (Strategy.settlement_match ht hlegs) h

theorem reset_sidesMatch {journal : JournalId} {specs : List (List EntrySpec)} {t : Transaction}
    (hspecs : (usageAccounts chart).mapM (s.resetSpecs journal chart lookup) = .ok specs)
    (h : (Transaction.start journal reference (.ofList [resetTag])).post specs.flatten = .ok t) :
    SidesMatch t.postings :=
  Transaction.post_sidesMatch (Transaction.start_sidesMatch _ _ _)
    (LegsMatch.flatten_mapM hspecs fun _ _ => resetSpecs_match) h

/-- A reset never fails as unbalanced. -/
theorem dailyReset_ne_unbalanced {journal : JournalId} {layer : Layer} {debits credits : Decimal} :
    s.dailyReset journal chart reference lookup ≠
      .error (.error (.unbalanced layer debits credits)) := by
  intro h
  rcases bind_eq_error.1 h with h | ⟨specs, hspecs, h⟩
  · obtain ⟨a, -, ha⟩ := exists_of_mapM_eq_error h
    exact resetSpecs_ne_unbalanced ha
  split at h
  · cases h
  rcases bind_eq_error.1 h with h | ⟨t, ht, h⟩
  · obtain ⟨e, he, heq⟩ := orError_eq_error.1 h
    obtain rfl : _ = e := Failure.error.inj heq
    exact Transaction.post_ne_unbalanced he
  rcases bind_eq_error.1 h with h | ⟨_, -, h⟩
  · exact validate_ne_unbalanced (reset_sidesMatch hspecs (orError_eq_ok.1 ht)) _ _ _ h
  · cases h

end LedgerService

/-! ## The main result -/

/-- **Everything the service returns is double entry.** What it creates has entries, all above
zero, and on every layer the debits are the same list of amounts as the credits, so that their
exact sums agree. So it is with resets, and with completions and reversals of what is double
entry. No validation on the way finds a layer unbalanced. -/
theorem service_doubleEntry (s : LedgerService) :
    (∀ request chart lookup t, s.create request chart lookup = .ok t →
      t.entries ≠ [] ∧ (∀ e ∈ t.entries, 0 < e.amount) ∧ SidesMatch t.postings ∧
        ∀ layer, ((amountsOn .debit layer t.postings).map Decimal.units).sum =
          ((amountsOn .credit layer t.postings).map Decimal.units).sum) ∧
    (∀ journal chart reference lookup t,
      s.dailyReset journal chart reference lookup = .ok (some t) → SidesMatch t.postings) ∧
    (∀ (t c t' : Transaction) reference lookup, SidesMatch t.postings →
      s.complete t reference lookup = (.ok (.completed c), t') → SidesMatch c.postings) ∧
    (∀ (t r t' : Transaction) reference lookup, SidesMatch t.postings →
      s.reverse t reference lookup = (.ok (.reversed r), t') → SidesMatch r.postings) ∧
    (∀ (group rs group' : List Transaction) reference references lookup,
      s.reverseGroup reference group references lookup = (.ok (.reversed rs), group') →
      List.Forall₂ (fun t r => SidesMatch t.postings → SidesMatch r.postings)
        (newestFirst Transaction.postDate group) rs) ∧
    ∀ layer debits credits,
      (∀ request chart t, s.build request chart = .ok t →
        validate t.entries ≠ .error (.error (.unbalanced layer debits credits))) ∧
      (∀ journal chart reference lookup, s.dailyReset journal chart reference lookup ≠
        .error (.error (.unbalanced layer debits credits))) ∧
      (∀ (t c : Transaction) reference, SidesMatch t.postings →
        s.buildCompletion t reference = .ok c →
        validate c.entries ≠ .error (.error (.unbalanced layer debits credits))) ∧
      ∀ (t : Transaction) reference, SidesMatch t.postings →
        validate (t.reversal reference).entries ≠
          .error (.error (.unbalanced layer debits credits)) := by
  refine ⟨?_, ?_, ?_, ?_, ?_, fun layer debits credits => ⟨?_, ?_, ?_, ?_⟩⟩
  · intro request chart lookup t h
    obtain ⟨hbuilt, hvalid, -⟩ := LedgerService.create_eq_ok.1 h
    have hm := LedgerService.build_sidesMatch hbuilt
    obtain ⟨hne, hpos, -⟩ := of_validate hvalid
    exact ⟨hne, hpos, hm, hm.sum_units⟩
  · intro journal chart reference lookup t h
    obtain ⟨specs, hspecs, hpost, -⟩ := LedgerService.dailyReset_eq_some h
    exact LedgerService.reset_sidesMatch hspecs hpost
  · intro t c t' reference lookup ht h
    obtain ⟨-, hc, -⟩ := LedgerService.complete_eq_completed.1 h
    obtain ⟨hbuilt, -⟩ := LedgerService.approve_completionDraft.1 hc
    exact LedgerService.buildCompletion_sidesMatch ht hbuilt
  · intro t r t' reference lookup ht h
    obtain ⟨-, hr, -⟩ := LedgerService.reverse_eq_reversed.1 h
    rw [LedgerService.eq_of_approve_reversal hr]
    exact ht.reversal reference
  · intro group rs group' reference references lookup h
    rw [LedgerService.reverseGroup_eq_reversed h, List.forall₂_map_right_iff]
    exact forall₂_zipIdx (fun t i ht => ht.reversal (references i)) 0
  · intro request chart t h
    exact validate_ne_unbalanced (LedgerService.build_sidesMatch h) layer debits credits
  · intro journal chart reference lookup
    exact LedgerService.dailyReset_ne_unbalanced
  · intro t c reference ht h
    exact validate_ne_unbalanced (LedgerService.buildCompletion_sidesMatch ht h) layer debits
      credits
  · intro t reference ht
    exact validate_ne_unbalanced (ht.reversal reference) layer debits credits

open SmallLedger in
/-- A transfer that is completed, one that is reversed, and a reset. -/
theorem service_doubleEntry_smallLedger :
    ∃ t c t' u r u' reset,
      service.create (request true .inbound [entry .amount payer wallet 40]) chart silent = .ok t ∧
        service.complete t "T2" silent = (.ok (.completed c), t') ∧
        SidesMatch t.postings ∧ SidesMatch c.postings ∧
      service.create (request false .p2p [entry .fee payer wallet 40]) chart silent = .ok u ∧
        service.reverse u "T3" silent = (.ok (.reversed r), u') ∧
        SidesMatch u.postings ∧ SidesMatch r.postings ∧
      service.dailyReset ⟨.ofNat 8⟩ chart "T4" spent = .ok (some reset) ∧
        SidesMatch reset.postings := by
  obtain ⟨hcreate, hreset, hcomplete, hreverse, -, -⟩ := service_doubleEntry service
  obtain ⟨t, c, t', ht, hc⟩ := exists_completed
    (by decide +kernel : settles (request true .inbound [entry .amount payer wallet 40]) = true)
  obtain ⟨u, hu, h⟩ := bind_eq_ok.1 (by decide +kernel : (do
    let u ← service.create (request false .p2p [entry .fee payer wallet 40]) chart silent
    let _ ← service.approve silent (reversalDraft u "T3")
    return u.isReversed) = (.ok false : Except Failure Bool))
  obtain ⟨r, hr, h⟩ := bind_eq_ok.1 h
  have hr := LedgerService.reverse_eq_reversed.2 ⟨Except.ok.inj h, hr, rfl⟩
  obtain ⟨reset?, hz, hsome⟩ := map_eq_ok.1 (by decide +kernel :
    (service.dailyReset ⟨.ofNat 8⟩ chart "T4" spent).map Option.isSome = .ok true)
  obtain ⟨reset, rfl⟩ := Option.isSome_iff_exists.1 hsome
  obtain ⟨-, -, hmt, -⟩ := hcreate _ _ _ t ht
  obtain ⟨-, -, hmu, -⟩ := hcreate _ _ _ u hu
  exact ⟨t, c, t', u, r, _, reset, ht, hc, hmt, hcomplete t c t' _ _ hmt hc,
    hu, hr, hmu, hreverse u r _ _ _ hmu hr, hz, hreset _ _ _ _ reset hz⟩

end LayeredLedger
