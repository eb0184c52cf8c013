import LayeredLedger.Proofs.Settlement
import LayeredLedger.Proofs.SmallLedger

/-!
# What a payment moves

A request that settles at once is carried out pair by pair. On the base layer every pair moves its
amount, and on the fee layer every fee does so once more. On the limit layers every principal
amount that counts as usage is taken from the asset bridge and given to the payer. Nothing is
posted on other layers, so the nets of all accounts are known from the request and the chart.

* `EntryRequest.countsAsUsage`, `recorded`: the pairs that count, and what recording them moves;
* `netOf_transferLegs`, `netOf_feeLegs`, `netOf_usageLegs`: the nets of the legs of a plan;
* `IsDraft.netOf_direct`: the net of a payment is a sum over the pairs of a currency;
* **`payment_moves`**: the nets of a payment on all layers.
-/

namespace LayeredLedger

/-! ## What is recorded -/

/-- The pair counts as usage: it is a principal amount with limits, and its payer is no bridge. -/
def EntryRequest.countsAsUsage (chart : Chart) (r : EntryRequest) : Bool :=
  r.kind? = some .amount ∧ ¬r.skipsLimits ∧ (chart.account? r.debit).any fun a => !a.isBridge

/-- What recording a pair as usage takes from an account, or gives to it with a minus sign. The
asset bridge of the currency is debited and the payer is credited. Without a bridge there is no
record. -/
def EntryRequest.record (chart : Chart) (x : Account) (r : EntryRequest) : Int :=
  match chart.bridge? r.amount.currency .asset with
  | some bridge =>
    r.amount.amount.units * (bridge.is x - if chart.account? r.debit = some x then 1 else 0)
  | none => 0

/-- What recording pairs in a currency takes from an account, less what it gives to it. -/
def recorded (chart : Chart) (x : Account) (currency : CurrencyCode) (pairs : List EntryRequest) :
    Int :=
  (pairs.map fun r => if r.amount.currency = currency then r.record chart x else 0).sum

section Plan

variable {s : LedgerService} {chart : Chart} {p : EntryPlan} (hp : IsPlan s chart p)

include hp

theorem IsPlan.countsAsUsage_iff : p.request.countsAsUsage chart = true ↔
    p.request.kind? = some .amount ∧ ¬p.request.skipsLimits ∧ ¬p.debit.isBridge := by
  rw [EntryRequest.countsAsUsage, Chart.finalAccount_eq_ok hp.debit]
  simp

theorem IsPlan.record_eq (x : Account) : p.request.record chart x =
    match p.assetBridge? with
    | some bridge => p.amount.units * (bridge.is x - p.debit.is x)
    | none => 0 := by
  have hbridge : chart.bridge? p.request.amount.currency .asset = p.assetBridge? :=
    (hp.bridge .asset).symm
  rw [EntryRequest.record, hbridge, Chart.finalAccount_eq_ok hp.debit]
  simp only [Option.some.injEq]
  rfl

end Plan

/-! ## The legs of a plan -/

theorem EntryPlan.layer_inj {p : EntryPlan} {band other : Band} :
    p.layer band = p.layer other ↔ band = other :=
  ⟨fun h => (Layer.of_injective h).1, fun h => h ▸ rfl⟩

section Legs

variable (p : EntryPlan) (x : Account) (l : Layer)

theorem netOf_transferLegs (layer : Layer) :
    netOf x l ((transferLegs p layer).map EntrySpec.posting) =
      if layer = l then p.amount.units * (p.debit.is x - p.credit.is x) else 0 :=
  netOf_pair x p.debit p.credit p.amount layer l

/-- The tags of a fee make no difference to balances. -/
theorem netOf_feeLegs : netOf x l ((feeLegs p).map EntrySpec.posting) =
    if p.request.kind? = some .fee ∧ p.layer .fee = l then
      p.amount.units * (p.debit.is x - p.credit.is x)
    else 0 := by
  unfold feeLegs
  by_cases hkind : p.request.kind? = some .fee
  · rw [if_pos hkind, List.map_map]
    simp only [hkind, true_and]
    exact netOf_transferLegs p x l (p.layer .fee)
  · rw [if_neg hkind, if_neg fun h => hkind h.1]
    rfl

theorem netOf_usageOn (bridge : Account) (layer : Layer) :
    netOf x l ((usageOn p bridge layer).map EntrySpec.posting) =
      if layer = l then p.amount.units * (bridge.is x - p.debit.is x) else 0 :=
  netOf_pair x bridge p.debit p.amount layer l

end Legs

namespace IsPlan

variable {s : LedgerService} {chart : Chart} {p : EntryPlan} (hp : IsPlan s chart p)

include hp

/-- Usage is recorded on both limit layers, if it counts, and on no other layer. -/
theorem netOf_usageLegs (x : Account) (band : Band) :
    netOf x (p.layer band) ((usageLegs p).map EntrySpec.posting) =
      if p.request.countsAsUsage chart = true ∧ (band = .dailyLimit ∨ band = .cumulativeLimit) then
        p.request.record chart x
      else 0 := by
  unfold usageLegs
  by_cases hcounts : p.request.countsAsUsage chart = true
  · rw [if_pos (hp.countsAsUsage_iff.1 hcounts), hp.record_eq]
    cases p.assetBridge? with
    | none => simp [netOf]
    | some bridge =>
      simp only [List.map_append, netOf_append, netOf_usageOn, EntryPlan.layer_inj, hcounts,
        true_and]
      cases band <;> simp
  · rw [if_neg fun h => hcounts (hp.countsAsUsage_iff.2 h), if_neg fun h => hcounts h.1]
    rfl

theorem netOf_directLegs (x : Account) (band : Band) :
    netOf x (p.layer band) ((directLegs p).map EntrySpec.posting) =
      (if .base = band then p.request.share chart x else 0) +
      (if p.request.kind? = some .fee ∧ .fee = band then p.request.share chart x else 0) +
      if p.request.countsAsUsage chart = true ∧ (band = .dailyLimit ∨ band = .cumulativeLimit) then
        p.request.record chart x
      else 0 := by
  rw [directLegs, List.map_append, List.map_append, netOf_append, netOf_append,
    netOf_transferLegs, netOf_feeLegs, hp.netOf_usageLegs, hp.share_eq]
  simp only [EntryPlan.layer_inj]

end IsPlan

/-! ## The whole payment -/

namespace IsDraft

variable {s : LedgerService} {request : TransactionRequest} {chart : Chart} {t : Transaction}
  {plans : List EntryPlan} (hd : IsDraft s request chart t .direct plans)

include hd

/-- What every plan nets to on its layer of a band, the payment nets to in sum, over the pairs in
the currency of the layer. -/
theorem netOf_direct (x : Account) (band : Band) {currency : CurrencyCode} {id : CurrencyId}
    (hid : s.currencies.id? currency = some id) (part : EntryRequest → Int)
    (hpart : ∀ p ∈ plans, netOf x (p.layer band) ((directLegs p).map EntrySpec.posting) =
      part p.request) :
    netOf x (.of band id) t.postings =
      (request.entries.map fun r => if r.amount.currency = currency then part r else 0).sum := by
  rw [netOf, hd.postings, net_flatMap, ← hd.requests, List.map_map]
  refine congrArg List.sum (List.map_congr_left fun p hp => ?_)
  have hlegs : Strategy.direct.legsOf p = directLegs p := rfl
  rw [Function.comp_apply, hlegs]
  split
  · rename_i hcurrency
    rw [← ((hd.plan p hp).layer_eq_iff hid).2 hcurrency]
    exact hpart p hp
  · -- the legs of the plan are on layers of another currency
    rename_i hcurrency
    refine net_eq_zero _ _ fun q hq hlayer => hcurrency ?_
    obtain ⟨y, hy, rfl⟩ := List.mem_map.1 hq
    obtain ⟨other, -, hother⟩ := (hd.isLegOf hp hy).layer
    have hsame : p.layer other = .of band id := hother.symm.trans hlayer
    obtain ⟨rfl, -⟩ := Layer.of_injective hsame
    exact ((hd.plan p hp).layer_eq_iff hid).1 hsame

variable (x : Account) {currency : CurrencyCode} {id : CurrencyId}
  (hid : s.currencies.id? currency = some id)

include hid

theorem netOf_direct_base :
    netOf x (.of .base id) t.postings = owed chart x currency request.entries :=
  hd.netOf_direct x .base hid _ fun p hp => by
    rw [(hd.plan p hp).netOf_directLegs]
    simp

theorem netOf_direct_fee : netOf x (.of .fee id) t.postings =
    owed chart x currency (request.entries.filter fun r => r.kind? = some .fee) := by
  rw [owed_filter_eq, hd.netOf_direct x .fee hid fun r =>
    if r.kind? = some .fee then r.share chart x else 0]
  · simp only [decide_eq_true_eq, ite_and]
  · intro p hp
    rw [(hd.plan p hp).netOf_directLegs]
    simp

theorem netOf_direct_usage (kind : LimitKind) : netOf x (.of kind.band id) t.postings =
    recorded chart x currency (request.entries.filter (EntryRequest.countsAsUsage chart)) := by
  rw [recorded, sum_map_filter_ite, hd.netOf_direct x kind.band hid fun r =>
    if r.countsAsUsage chart = true then r.record chart x else 0]
  · simp only [ite_and]
  · intro p hp
    rw [(hd.plan p hp).netOf_directLegs]
    cases kind <;> simp [LimitKind.band]

end IsDraft

/-- **A payment moves what it is asked to move.** Every pair has its accounts in the chart and a
registered currency. For every account and currency, the base layer shows the amounts of all pairs,
the fee layer those of fees, and either limit layer the principal amounts that count as usage,
from the asset bridge to the payer. No entry is on a layer of another band, or of a currency that
no pair is in. -/
theorem payment_moves {s : LedgerService} {request : TransactionRequest} {chart : Chart}
    {lookup : BalanceLookup} {t : Transaction} (hdirect : request.shape.pending = false)
    (hcreate : s.create request chart lookup = .ok t) :
    (∀ r ∈ request.entries, ∃ debit credit id, chart.account? r.debit = some debit ∧
      chart.account? r.credit = some credit ∧ s.currencies.id? r.amount.currency = some id) ∧
    (∀ x currency id, s.currencies.id? currency = some id →
      netOf x (.of .base id) t.postings = owed chart x currency request.entries ∧
      netOf x (.of .fee id) t.postings =
        owed chart x currency (request.entries.filter fun r => r.kind? = some .fee) ∧
      ∀ kind : LimitKind, netOf x (.of kind.band id) t.postings =
        recorded chart x currency (request.entries.filter (EntryRequest.countsAsUsage chart))) ∧
    ∀ e ∈ t.entries, ∃ r ∈ request.entries, ∃ id, s.currencies.id? r.amount.currency = some id ∧
      ∃ band ∈ [Band.base, .fee, .dailyLimit, .cumulativeLimit], e.layer = .of band id := by
  obtain ⟨-, strategy, plans, hd⟩ := LedgerService.exists_isDraft_of_create hcreate
  obtain rfl : strategy = .direct := by
    have htakes := strategyFor?_eq_some.1 hd.strategy_eq
    cases strategy <;> simp_all [Strategy.takes]
  refine ⟨fun r hr => ?_, fun x currency id hid => ?_, fun e he => ?_⟩
  · rw [← hd.requests] at hr
    obtain ⟨p, hp, rfl⟩ := List.mem_map.1 hr
    have hplan := hd.plan p hp
    exact ⟨_, _, _, Chart.finalAccount_eq_ok hplan.debit, Chart.finalAccount_eq_ok hplan.credit,
      hplan.currency⟩
  · exact ⟨hd.netOf_direct_base x hid, hd.netOf_direct_fee x hid, hd.netOf_direct_usage x hid⟩
  · obtain ⟨p, hp, y, hy, rfl⟩ := hd.exists_leg he
    have hr : p.request ∈ request.entries := by
      rw [← hd.requests]
      exact List.mem_map_of_mem hp
    obtain ⟨band, hband, hlayer⟩ := (hd.isLegOf hp hy).layer
    exact ⟨p.request, hr, p.currency, (hd.plan p hp).currency, band, hband, hlayer⟩

open SmallLedger in
/-- Everything settles on the base layer, and the fee shows on its own layer as well. Only the first
amount counts as usage: the second leaves limits out, and a bridge pays the third. -/
theorem payment_moves_mixedPayments : ∃ t, service.create mixedPayments chart spent = .ok t ∧
    netOf payer (.of .base usdId) t.postings = (dollars 48).units ∧
    netOf wallet (.of .base usdId) t.postings = -(dollars 52).units ∧
    netOf merchant (.of .fee usdId) t.postings = -(dollars 3).units ∧
    netOf payer (.of .dailyLimit usdId) t.postings = -(dollars 40).units ∧
    netOf assetBridge (.of .cumulativeLimit usdId) t.postings = (dollars 40).units ∧
    ∀ e ∈ t.entries, e.layer ∈ [.of .base usdId, .of .fee usdId, .of .dailyLimit usdId,
      .of .cumulativeLimit usdId] := by
  obtain ⟨t, hcreate, -⟩ := map_eq_ok.1 (by decide +kernel :
    (service.create mixedPayments chart spent).map (fun _ => ()) = .ok ())
  have husd : service.currencies.id? usd = some usdId := by decide +kernel
  obtain ⟨-, hnets, hlayers⟩ := payment_moves rfl hcreate
  refine ⟨t, hcreate, ?_, ?_, ?_, ?_, ?_, fun e he => ?_⟩
  · exact (hnets payer usd usdId husd).1.trans (by decide +kernel)
  · exact (hnets wallet usd usdId husd).1.trans (by decide +kernel)
  · exact (hnets merchant usd usdId husd).2.1.trans (by decide +kernel)
  · exact ((hnets payer usd usdId husd).2.2 .daily).trans (by decide +kernel)
  · exact ((hnets assetBridge usd usdId husd).2.2 .cumulative).trans (by decide +kernel)
  · obtain ⟨r, hr, id, hid, band, hband, hlayer⟩ := hlayers e he
    have hcurrency : r.amount.currency = usd :=
      (by decide +kernel : ∀ r ∈ mixedPayments.entries, r.amount.currency = usd) r hr
    rw [hcurrency, husd] at hid
    obtain rfl := Option.some.inj hid
    rw [hlayer]
    simp only [List.mem_cons, List.not_mem_nil, or_false] at hband ⊢
    rcases hband with rfl | rfl | rfl | rfl <;> simp

end LayeredLedger
