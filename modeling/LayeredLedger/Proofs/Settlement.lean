import LayeredLedger.Proofs.Completion
import LayeredLedger.Proofs.Operations
import LayeredLedger.Proofs.SmallLedger
import LayeredLedger.Proofs.Totals

/-!
# What is settled on the base layer

A request says who owes what: each of its pairs moves an amount from one account to another. A
transaction that waits for completion and the transaction that completes it are set against this,
account by account and currency by currency, in exact units.

* `owed`: what a list of pairs moves from or to an account, in one currency;
* `IsDraft.netOf_base`: the net on a base layer is a sum over plans;
* **`inbound_settles`**: money coming in is settled as it is owed, and everybody is paid once;
* `EntryRequest.isSettled`: the pairs of a bill payment that its completion settles;
* **`billPayment_settles_iff`**: a bill payment is settled as it is owed exactly if the pairs that
  are not settled cancel out.
-/

namespace LayeredLedger

/-! ## What is owed -/

/-- One for the account itself, and zero for all others. -/
def Account.is (a x : Account) : Int := if a = x then 1 else 0

/-- What a pair takes from an account, or gives to it with a minus sign. The accounts are those
with the codes of the pair. -/
def EntryRequest.share (chart : Chart) (x : Account) (r : EntryRequest) : Int :=
  r.amount.amount.units * ((if chart.account? r.debit = some x then 1 else 0) -
    if chart.account? r.credit = some x then 1 else 0)

/-- What pairs in a currency take from an account, less what they give to it. -/
def owed (chart : Chart) (x : Account) (currency : CurrencyCode) (pairs : List EntryRequest) :
    Int :=
  (pairs.map fun r => if r.amount.currency = currency then r.share chart x else 0).sum

/-- A sum over chosen pairs, each under a condition of its own. -/
theorem sum_map_filter_ite {α : Type} (P : α → Prop) [DecidablePred P] (f : α → Int)
    (chosen : α → Bool) (l : List α) :
    ((l.filter chosen).map fun a => if P a then f a else 0).sum =
      (l.map fun a => if P a ∧ chosen a = true then f a else 0).sum := by
  induction l with
  | nil => rfl
  | cons a l ih =>
    rw [List.map_cons, List.sum_cons, ← ih]
    by_cases h : chosen a = true <;> simp [h]

theorem owed_filter_eq (chart : Chart) (x : Account) (currency : CurrencyCode)
    (chosen : EntryRequest → Bool) (pairs : List EntryRequest) :
    owed chart x currency (pairs.filter chosen) = (pairs.map fun r =>
      if r.amount.currency = currency ∧ chosen r = true then r.share chart x else 0).sum :=
  sum_map_filter_ite _ _ chosen pairs

/-- The pairs that are chosen and those that are not are all pairs. -/
theorem owed_filter (chart : Chart) (x : Account) (currency : CurrencyCode)
    (chosen : EntryRequest → Bool) (pairs : List EntryRequest) :
    owed chart x currency (pairs.filter chosen) +
        owed chart x currency (pairs.filter fun r => !chosen r) =
      owed chart x currency pairs := by
  rw [owed_filter_eq, owed_filter_eq, owed, ← List.sum_map_add]
  refine congrArg List.sum (List.map_congr_left fun r _ => ?_)
  by_cases hr : r.amount.currency = currency <;> by_cases h : chosen r = true <;> simp [hr, h]

theorem owed_eq_zero {chart : Chart} {x : Account} {currency : CurrencyCode}
    {pairs : List EntryRequest} (h : ∀ r ∈ pairs,
      chart.account? r.debit ≠ some x ∧ chart.account? r.credit ≠ some x) :
    owed chart x currency pairs = 0 := by
  unfold owed
  refine List.sum_eq_zero fun v hv => ?_
  obtain ⟨r, hr, rfl⟩ := List.mem_map.1 hv
  obtain ⟨hd, hc⟩ := h r hr
  simp [EntryRequest.share, hd, hc]

theorem IsPlan.share_eq {s : LedgerService} {chart : Chart} {p : EntryPlan}
    (hp : IsPlan s chart p) (x : Account) :
    p.request.share chart x = p.amount.units * (p.debit.is x - p.credit.is x) := by
  rw [EntryRequest.share, Chart.finalAccount_eq_ok hp.debit, Chart.finalAccount_eq_ok hp.credit]
  simp only [Option.some.injEq]
  rfl

/-! ## Currencies and their numbers -/

theorem CurrencyRegistry.id?_injective {r : CurrencyRegistry} {a b : CurrencyCode}
    {id : CurrencyId} (ha : r.id? a = some id) (hb : r.id? b = some id) : a = b := by
  obtain ⟨ca, hca, ha⟩ := Option.map_eq_some_iff.1 ha
  obtain ⟨cb, hcb, hb⟩ := Option.map_eq_some_iff.1 hb
  obtain ⟨hma, hta⟩ := Keyed.get?_eq_some_iff.1 hca
  obtain ⟨hmb, htb⟩ := Keyed.get?_eq_some_iff.1 hcb
  have hnodup : (r.currencies.toList.map Prod.snd).Nodup := List.pairwise_map.2 r.ids_nodup
  obtain rfl : ca = cb := List.inj_on_of_nodup_map hnodup hma hmb (ha.trans hb.symm)
  exact CurrencyCode.ext_text (hta.symm.trans htb)

theorem IsPlan.layer_eq_iff {s : LedgerService} {chart : Chart} {p : EntryPlan}
    (hp : IsPlan s chart p) {band : Band} {currency : CurrencyCode} {id : CurrencyId}
    (hid : s.currencies.id? currency = some id) :
    p.layer band = .of band id ↔ p.request.amount.currency = currency := by
  constructor
  · intro h
    have h : p.currency = id := (Layer.of_injective h).2
    exact CurrencyRegistry.id?_injective (h ▸ hp.currency) hid
  · intro h
    have h' := hp.currency
    rw [h, hid] at h'
    rw [EntryPlan.layer, Option.some.inj h']

/-! ## Nets of an account -/

section Net

variable (x : Account) (id : CurrencyId)

/-- An amount that is debited to one account and credited to another. -/
theorem netOf_pair (debited credited : Account) (amount : Decimal) (layer l : Layer) :
    netOf x l [⟨debited, .debit, amount, layer⟩, ⟨credited, .credit, amount, layer⟩] =
      if layer = l then amount.units * (debited.is x - credited.is x) else 0 := by
  by_cases hl : layer = l
  · by_cases hd : debited = x <;> by_cases hc : credited = x <;>
      simp [netOf, Posting.signedUnits, Account.is, hl, hd, hc]
  · simp [netOf, hl]

theorem netOf_moved (p : EntryPlan) (debited credited : Account) (layer : Layer) :
    netOf x layer (p.moved debited credited) =
      if p.layer .base = layer then p.amount.units * (debited.is x - credited.is x) else 0 :=
  netOf_pair x debited credited p.amount (p.layer .base) layer

theorem intoBridge_moved (p : EntryPlan) (liability : Account) (tags : Tags) :
    (intoBridge p liability tags).map EntrySpec.posting = p.moved p.debit liability := rfl

theorem layer_of_mem_pendingLegs {p : EntryPlan} {asset liability : Account} {tags? : Option Tags}
    {y : EntrySpec} (hy : y ∈ pendingLegs p asset liability tags?) :
    y.layer = p.layer .pending := by
  unfold pendingLegs at hy
  split at hy
  · simp only [List.mem_cons, List.not_mem_nil, or_false] at hy
    rcases hy with rfl | rfl | rfl | rfl <;> rfl
  · simp only [List.mem_cons, List.not_mem_nil, or_false] at hy
    rcases hy with rfl | rfl <;> rfl

/-- The image on the pending layer leaves the base layers alone. -/
theorem netOf_pendingLegs (p : EntryPlan) (asset liability : Account) (tags? : Option Tags) :
    netOf x (.of .base id) ((pendingLegs p asset liability tags?).map EntrySpec.posting) = 0 := by
  refine net_eq_zero _ _ fun q hq h => ?_
  obtain ⟨y, hy, rfl⟩ := List.mem_map.1 hq
  have h : y.layer = .of .base id := h
  rw [layer_of_mem_pendingLegs hy] at h
  cases (Layer.of_injective h).1

end Net

namespace IsDraft

variable {s : LedgerService} {request : TransactionRequest} {chart : Chart} {t c : Transaction}
  {strategy : Strategy} {plans : List EntryPlan} (hd : IsDraft s request chart t strategy plans)

include hd

/-- The net of a transaction and its completion on a base layer is the sum of the nets of the
plans: what is unwound is on other layers. -/
theorem netOf_base (hc : IsCompletion t strategy plans c) (x : Account) (id : CurrencyId) :
    netOf x (.of .base id) (t.postings ++ c.postings) = (plans.map fun p =>
      netOf x (.of .base id) ((strategy.legsOf p).map EntrySpec.posting ++
        p.settled t strategy)).sum := by
  have hbase : (!(Layer.of .base id).isInBand .base) = false := by simp [Layer.isInBand_of]
  unfold netOf
  rw [hc.postings, net_append, net_append, net_opposite,
    net_filter_layer _ _ fun layer => !layer.isInBand .base, hbase, hd.postings, net_flatMap,
    net_flatMap]
  simp only [net_append, List.sum_map_add]
  simp

/-- If every plan nets to what its pair moves, so does the transaction. -/
theorem netOf_eq_owed (hc : IsCompletion t strategy plans c) {x : Account}
    {currency : CurrencyCode} {id : CurrencyId} (hid : s.currencies.id? currency = some id)
    (chosen : EntryRequest → Bool) (h : ∀ p ∈ plans,
      netOf x (.of .base id) ((strategy.legsOf p).map EntrySpec.posting ++ p.settled t strategy) =
        if p.layer .base = .of .base id ∧ chosen p.request = true
          then p.amount.units * (p.debit.is x - p.credit.is x) else 0) :
    netOf x (.of .base id) (t.postings ++ c.postings) =
      owed chart x currency (request.entries.filter chosen) := by
  rw [hd.netOf_base hc, owed_filter_eq, ← hd.requests, List.map_map]
  refine congrArg List.sum (List.map_congr_left fun p hp => ?_)
  rw [h p hp, Function.comp_apply, (hd.plan p hp).share_eq]
  simp only [(hd.plan p hp).layer_eq_iff hid]

/-! ### Money coming in -/

/-- A plan of money coming in moves the amount into the bridge and out again. -/
theorem netOf_inbound (hs : strategy = .pendingInbound) {p : EntryPlan} (hp : p ∈ plans)
    (x : Account) (id : CurrencyId) :
    netOf x (.of .base id) ((strategy.legsOf p).map EntrySpec.posting ++ p.settled t strategy) =
      if p.layer .base = .of .base id then p.amount.units * (p.debit.is x - p.credit.is x)
      else 0 := by
  subst hs
  obtain ⟨asset, liability, -, hl, hlegs⟩ := inboundLegs_eq_ok (hd.legs p hp)
  have hl : p.liabilityBridge? = some liability := hl
  have hsettled : netOf x (.of .base id) (p.settled t .pendingInbound) =
      netOf x (.of .base id) (p.moved liability p.credit) := by
    simp only [EntryPlan.settled, hl, EntryPlan.moved, netOf, net_cons, net_nil]
    omega
  rw [hlegs, List.map_append, intoBridge_moved, netOf_append, netOf_append, hsettled,
    netOf_moved, netOf_moved, netOf_pendingLegs]
  split <;> ring

end IsDraft

/-- The amounts that are paid to an account on a layer, in order. -/
def paidTo (x : Account) (layer : Layer) (ps : List Posting) : List Decimal :=
  (ps.filter fun q => q.account = x ∧ q.side = .credit ∧ q.layer = layer).map Posting.amount

theorem paidTo_append (x : Account) (layer : Layer) (ps qs : List Posting) :
    paidTo x layer (ps ++ qs) = paidTo x layer ps ++ paidTo x layer qs := by
  simp [paidTo]

theorem paidTo_eq_nil {x : Account} {layer : Layer} {ps : List Posting}
    (h : ∀ q ∈ ps, q.layer ≠ layer) : paidTo x layer ps = [] := by
  rw [paidTo, List.map_eq_nil_iff, List.filter_eq_nil_iff]
  intro q hq
  simp [h q hq]

namespace IsDraft

variable {s : LedgerService} {request : TransactionRequest} {chart : Chart} {t c : Transaction}
  {strategy : Strategy} {plans : List EntryPlan} (hd : IsDraft s request chart t strategy plans)

include hd

theorem paidTo_settled (hs : strategy = .pendingInbound) {p : EntryPlan} (hp : p ∈ plans)
    (x : Account) {currency : CurrencyCode} {id : CurrencyId}
    (hid : s.currencies.id? currency = some id) :
    paidTo x (.of .base id) (p.settled t strategy) =
      if p.request.amount.currency = currency ∧ chart.account? p.request.credit = some x
        then [p.amount] else [] := by
  subst hs
  obtain ⟨asset, liability, -, hl, -⟩ := inboundLegs_eq_ok (hd.legs p hp)
  have hl : p.liabilityBridge? = some liability := hl
  have hx : chart.account? p.request.credit = some x ↔ p.credit = x := by
    rw [Chart.finalAccount_eq_ok (hd.plan p hp).credit, Option.some.injEq]
  have hcurrency : p.layer .base = .of .base id ↔ p.request.amount.currency = currency :=
    (hd.plan p hp).layer_eq_iff hid
  simp only [EntryPlan.settled, hl, hx, ← hcurrency]
  by_cases hlayer : p.layer .base = .of .base id <;> by_cases hcredit : p.credit = x <;>
    simp [paidTo, hlayer, hcredit]

/-- A completion of money coming in pays every recipient once for each pair. -/
theorem paidTo_completion (hs : strategy = .pendingInbound)
    (hc : IsCompletion t strategy plans c) (x : Account) {currency : CurrencyCode}
    {id : CurrencyId} (hid : s.currencies.id? currency = some id) :
    paidTo x (.of .base id) c.postings = (request.entries.filter fun r =>
      r.amount.currency = currency ∧ chart.account? r.credit = some x).map
        fun r => r.amount.amount := by
  have hunwound : paidTo x (.of .base id)
      ((t.postings.filter fun q => !q.layer.isInBand .base).map Posting.opposite) = [] := by
    refine paidTo_eq_nil fun q hq hlayer => ?_
    obtain ⟨q', hq', rfl⟩ := List.mem_map.1 hq
    have h := (List.mem_filter.1 hq').2
    rw [Posting.opposite_layer] at hlayer
    rw [hlayer, Layer.isInBand_of] at h
    simp at h
  rw [hc.postings, paidTo_append, hunwound, List.nil_append, ← hd.requests]
  have hp := fun p (hp : p ∈ plans) => hd.paidTo_settled hs hp x hid
  clear hunwound hc hd
  induction plans with
  | nil => rfl
  | cons p plans ih =>
    rw [List.flatMap_cons, paidTo_append, ih fun q hq => hp q (by simp [hq]), hp p (by simp),
      List.map_cons, List.filter_cons]
    by_cases h : p.request.amount.currency = currency ∧ chart.account? p.request.credit = some x
    · rw [if_pos h, if_pos (by simpa using h)]
      rfl
    · rw [if_neg h, if_neg (by simpa using h)]
      rfl

end IsDraft

/-- **Money coming in is settled as it is owed.** After completion, every account has on every
base layer exactly what the pairs of the request move; an account that is in no pair, such as a
bridge, has nothing; and every recipient is paid once for each pair. -/
theorem inbound_settles {s : LedgerService} {accounts : List Account}
    {request : TransactionRequest} {lookup lookup' : BalanceLookup} {reference : String}
    {t c t' : Transaction} (hcodes : CleanCodes accounts)
    (hpending : request.shape.pending = true) (hgroup : request.shape.group = .inbound)
    (hplain : request.metadata.IsPlain)
    (hcreate : s.create request (.ofList accounts) lookup = .ok t)
    (hcomplete : s.complete t reference lookup' = (.ok (.completed c), t')) (x : Account)
    {currency : CurrencyCode} {id : CurrencyId} (hid : s.currencies.id? currency = some id) :
    netOf x (.of .base id) (t.postings ++ c.postings) =
        owed (.ofList accounts) x currency request.entries ∧
      ((∀ r ∈ request.entries, (Chart.ofList accounts).account? r.debit ≠ some x ∧
          (Chart.ofList accounts).account? r.credit ≠ some x) →
        netOf x (.of .base id) (t.postings ++ c.postings) = 0) ∧
      paidTo x (.of .base id) c.postings = (request.entries.filter fun r =>
        r.amount.currency = currency ∧ (Chart.ofList accounts).account? r.credit = some x).map
          fun r => r.amount.amount := by
  obtain ⟨hne, strategy, plans, hd⟩ := LedgerService.exists_isDraft_of_create hcreate
  have hs : strategy = .pendingInbound := by
    have htakes := strategyFor?_eq_some.1 hd.strategy_eq
    cases strategy <;> simp_all [Strategy.takes]
  have htidy := Chart.isTidy_ofList hcodes
  have hc := hd.isCompletion hplain htidy hne (by simp [hs]) hcomplete
  have hnet : netOf x (.of .base id) (t.postings ++ c.postings) =
      owed (.ofList accounts) x currency request.entries := by
    have h := hd.netOf_eq_owed hc hid (x := x) (fun _ => true) fun p hp => by
      rw [hd.netOf_inbound hs hp]
      simp
    rwa [List.filter_true] at h
  refine ⟨hnet, fun h => ?_, hd.paidTo_completion hs hc x hid⟩
  rw [hnet, owed_eq_zero h]

open SmallLedger in
/-- Two recipients, one of them paid twice and one that grows by debits. -/
theorem inbound_settles_smallLedger : ∃ t c t',
    service.create (request true .inbound
      [entry .amount payer wallet 40, entry .fee payer merchant 7, entry .rebate promo wallet 2])
      chart silent = .ok t ∧
    service.complete t "T2" silent = (.ok (.completed c), t') ∧
    netOf merchant (.of .base usdId) (t.postings ++ c.postings) = -(dollars 7).units ∧
    netOf liabilityBridge (.of .base usdId) (t.postings ++ c.postings) = 0 ∧
    paidTo wallet (.of .base usdId) c.postings = [dollars 40, dollars 2] := by
  obtain ⟨t, c, t', hcreate, hcomplete⟩ := exists_completed (by decide +kernel : settles
    (request true .inbound
      [entry .amount payer wallet 40, entry .fee payer merchant 7, entry .rebate promo wallet 2]) =
      true)
  have hsettles := fun x => inbound_settles (by decide +kernel : CleanCodes accounts) rfl rfl
    (by decide +kernel) hcreate hcomplete x (by decide +kernel : service.currencies.id? usd = usdId)
  refine ⟨t, c, t', hcreate, hcomplete, ?_, ?_, ?_⟩
  · rw [(hsettles merchant).1]
    decide +kernel
  · exact (hsettles liabilityBridge).2.1 (by decide +kernel)
  · rw [(hsettles wallet).2.2]
    decide +kernel

/-! ## Bill payments -/

/-- The completion of a bill payment with entries on some accounts settles the pair. A rebate
whose payer is on no entry is not settled, and no commission is whose recipient grows by debits. -/
def EntryRequest.isSettled (chart : Chart) (codes : List String) (r : EntryRequest) : Bool :=
  match r.kind? with
  | some .amount => true
  | some .rebate => r.debit ∈ codes
  | some .commission => (chart.account? r.credit).any fun a => a.side = .credit
  | _ => false

theorem isSettled_amount {chart : Chart} {codes : List String} {r : EntryRequest}
    (h : r.kind? = some .amount) : r.isSettled chart codes = true := by
  rw [EntryRequest.isSettled, h]

theorem isSettled_rebate {chart : Chart} {codes : List String} {r : EntryRequest}
    (h : r.kind? = some .rebate) : r.isSettled chart codes = decide (r.debit ∈ codes) := by
  rw [EntryRequest.isSettled, h]

theorem isSettled_commission {chart : Chart} {codes : List String} {r : EntryRequest}
    {a : Account} (h : r.kind? = some .commission) (ha : chart.account? r.credit = some a) :
    r.isSettled chart codes = decide (a.side = .credit) := by
  rw [EntryRequest.isSettled, h, ha]
  rfl

namespace IsDraft

variable {s : LedgerService} {request : TransactionRequest} {chart : Chart} {t c : Transaction}
  {strategy : Strategy} {plans : List EntryPlan} (hd : IsDraft s request chart t strategy plans)

include hd

/-- A plan of a bill payment moves its amount if its pair is settled, and nothing otherwise. -/
theorem netOf_bill (hs : strategy = .pendingBillPayment) {p : EntryPlan} (hp : p ∈ plans)
    (x : Account) (id : CurrencyId) :
    netOf x (.of .base id) ((strategy.legsOf p).map EntrySpec.posting ++ p.settled t strategy) =
      if p.layer .base = .of .base id ∧ p.request.isSettled chart t.accountCodes = true
        then p.amount.units * (p.debit.is x - p.credit.is x) else 0 := by
  have hlegsOf := hd.legs p hp
  rw [hs] at hlegsOf
  obtain ⟨asset, liability, -, hl, hbill⟩ := billPaymentLegs_eq_ok hlegsOf
  have hl : p.liabilityBridge? = some liability := hl
  rw [← hs] at hbill
  generalize strategy.legsOf p = legs at hbill
  rw [netOf_append, hs]
  cases hbill with
  | amount hkind =>
    have hsettled : p.settled t .pendingBillPayment = p.moved liability p.credit := by
      simp only [EntryPlan.settled, hkind, hl]
    rw [List.map_append, intoBridge_moved, netOf_append, hsettled, netOf_moved, netOf_moved,
      netOf_pendingLegs]
    simp only [isSettled_amount hkind, and_true]
    split <;> ring
  | rebate hkind =>
    have hsettled : p.settled t .pendingBillPayment =
        if p.request.debit ∈ t.accountCodes then p.moved p.debit p.credit else [] := by
      simp only [EntryPlan.settled, hkind, (hd.plan p hp).lists_debit.2]
    rw [netOf_pendingLegs, zero_add, hsettled, isSettled_rebate hkind]
    by_cases hfound : p.request.debit ∈ t.accountCodes
    · simp [hfound, netOf_moved]
    · simp [hfound, netOf]
  | commission hkind hside =>
    have hsettled : p.settled t .pendingBillPayment = p.moved p.debit p.credit := by
      simp only [EntryPlan.settled, hkind, hside, if_true]
    rw [netOf_pendingLegs, zero_add, hsettled, netOf_moved,
      isSettled_commission hkind (Chart.finalAccount_eq_ok (hd.plan p hp).credit)]
    simp [hside]
  | plainCommission hkind hside =>
    have hsettled : p.settled t .pendingBillPayment = [] := by
      simp [EntryPlan.settled, hkind, hside]
    rw [netOf_pendingLegs, zero_add, hsettled,
      isSettled_commission hkind (Chart.finalAccount_eq_ok (hd.plan p hp).credit)]
    simp [hside, netOf]
  | none hamount hrebate hcommission =>
    have hunsettled : p.request.isSettled chart t.accountCodes = false := by
      unfold EntryRequest.isSettled
      split
      · contradiction
      · contradiction
      · contradiction
      · rfl
    rw [EntryPlan.settled_other hamount hrebate hcommission, hunsettled]
    simp [netOf]

end IsDraft

/-- **A bill payment is settled as far as its pairs are settled.** After completion, every account
has on every base layer what the settled pairs move. So the pairs all count exactly if those that
are not settled cancel out. -/
theorem billPayment_settles_iff {s : LedgerService} {accounts : List Account}
    {request : TransactionRequest} {lookup lookup' : BalanceLookup} {reference : String}
    {t c t' : Transaction} (hcodes : CleanCodes accounts)
    (hpending : request.shape.pending = true) (hgroup : request.shape.group = .billPayment)
    (hplain : request.metadata.IsPlain)
    (hcreate : s.create request (.ofList accounts) lookup = .ok t)
    (hcomplete : s.complete t reference lookup' = (.ok (.completed c), t')) :
    (∀ x currency id, s.currencies.id? currency = some id →
      netOf x (.of .base id) (t.postings ++ c.postings) = owed (.ofList accounts) x currency
        (request.entries.filter (EntryRequest.isSettled (.ofList accounts) t.accountCodes))) ∧
    ((∀ x currency id, s.currencies.id? currency = some id →
        netOf x (.of .base id) (t.postings ++ c.postings) =
          owed (.ofList accounts) x currency request.entries) ↔
      ∀ x currency id, s.currencies.id? currency = some id →
        owed (.ofList accounts) x currency (request.entries.filter fun r =>
          !r.isSettled (.ofList accounts) t.accountCodes) = 0) := by
  obtain ⟨hne, strategy, plans, hd⟩ := LedgerService.exists_isDraft_of_create hcreate
  have hs : strategy = .pendingBillPayment := by
    have htakes := strategyFor?_eq_some.1 hd.strategy_eq
    cases strategy <;> simp_all [Strategy.takes]
  have htidy := Chart.isTidy_ofList hcodes
  have hc := hd.isCompletion hplain htidy hne (by simp [hs]) hcomplete
  have hnet : ∀ x currency id, s.currencies.id? currency = some id →
      netOf x (.of .base id) (t.postings ++ c.postings) = owed (.ofList accounts) x currency
        (request.entries.filter (EntryRequest.isSettled (.ofList accounts) t.accountCodes)) :=
    fun x currency id hid => hd.netOf_eq_owed hc hid _ fun p hp => hd.netOf_bill hs hp x id
  refine ⟨hnet, forall₄_congr fun x currency id hid => ?_⟩
  have hall := owed_filter (.ofList accounts) x currency
    (EntryRequest.isSettled (.ofList accounts) t.accountCodes) request.entries
  rw [hnet x currency id hid]
  omega

open SmallLedger in
/-- A principal amount, a rebate and two commissions, of which one is dropped. -/
theorem billPayment_settles_smallLedger : ∃ t c t',
    service.create (request true .billPayment
      [entry .amount payer merchant 40, entry .rebate payer wallet 1,
        entry .commission expense wallet 2, entry .commission expense merchant 5])
      chart silent = .ok t ∧
    service.complete t "T2" silent = (.ok (.completed c), t') ∧
    netOf wallet (.of .base usdId) (t.postings ++ c.postings) = -(dollars 3).units ∧
    netOf merchant (.of .base usdId) (t.postings ++ c.postings) = -(dollars 40).units ∧
    ¬∀ x currency id, service.currencies.id? currency = some id →
      netOf x (.of .base id) (t.postings ++ c.postings) = owed chart x currency
        [entry .amount payer merchant 40, entry .rebate payer wallet 1,
          entry .commission expense wallet 2, entry .commission expense merchant 5] := by
  obtain ⟨t, ht, hrun⟩ := bind_eq_ok.1 (by decide +kernel : (do
    let t ← service.create (request true .billPayment
      [entry .amount payer merchant 40, entry .rebate payer wallet 1,
        entry .commission expense wallet 2, entry .commission expense merchant 5]) chart silent
    let _ ← service.approve silent (service.completionDraft t "T2")
    return (t.isCompleted, t.accountCodes)) = (.ok (false, ["payer", "liability-bridge", "merchant",
      "asset-bridge", "wallet", "expense"]) : Except Failure (Bool × List String)))
  obtain ⟨c, hc, hrun⟩ := bind_eq_ok.1 hrun
  obtain ⟨hopen, haccounts⟩ := Prod.mk.inj (Except.ok.inj hrun)
  have hcomplete := LedgerService.complete_eq_completed.2 ⟨hopen, hc, rfl⟩
  have husd : service.currencies.id? usd = some usdId := by decide +kernel
  obtain ⟨hnet, hiff⟩ := billPayment_settles_iff (by decide +kernel : CleanCodes accounts) rfl rfl
    (by decide +kernel) ht hcomplete
  rw [haccounts] at hnet hiff
  refine ⟨t, c, _, ht, hcomplete, ?_, ?_, fun h => ?_⟩
  · rw [hnet wallet usd usdId husd]
    decide +kernel
  · rw [hnet merchant usd usdId husd]
    decide +kernel
  · have := hiff.1 h merchant usd usdId husd
    exact absurd this (by decide +kernel)

open SmallLedger in
/-- A commission to a recipient that grows by debits is dropped, so bill payments are not always
settled as they are owed. -/
theorem billPayment_drops_commission :
    ¬∀ (s : LedgerService) (accounts : List Account) (request : TransactionRequest)
      (lookup lookup' : BalanceLookup) (reference : String) (t c t' : Transaction),
      CleanCodes accounts → request.shape.pending = true → request.shape.group = .billPayment →
      (∀ r ∈ request.entries, r.kind? ∈ [some .amount, some .rebate, some .commission]) →
      request.metadata.IsPlain → s.create request (.ofList accounts) lookup = .ok t →
      s.complete t reference lookup' = (.ok (.completed c), t') →
      ∀ x currency id, s.currencies.id? currency = some id →
        netOf x (.of .base id) (t.postings ++ c.postings) =
          owed (.ofList accounts) x currency request.entries := by
  intro h
  obtain ⟨t, ht, hrun⟩ := bind_eq_ok.1 (by decide +kernel : (do
    let t ← service.create (request true .billPayment [entry .commission expense merchant 5])
      chart silent
    let c ← service.approve silent (service.completionDraft t "T2")
    return (t.isCompleted, netOf merchant (.of .base usdId) (t.postings ++ c.postings))) =
      (.ok (false, 0) : Except Failure (Bool × Int)))
  obtain ⟨c, hc, hrun⟩ := bind_eq_ok.1 hrun
  obtain ⟨hopen, hnet⟩ := Prod.mk.inj (Except.ok.inj hrun)
  have howed := h service accounts _ silent silent "T2" t c _ (by decide +kernel) rfl rfl
    (by decide +kernel) (by decide +kernel) ht
    (LedgerService.complete_eq_completed.2 ⟨hopen, hc, rfl⟩) merchant usd usdId (by decide +kernel)
  rw [hnet] at howed
  exact absurd howed (by decide +kernel)

end LayeredLedger
