import LayeredLedger.Proofs.Balances
import LayeredLedger.Proofs.DoubleEntry
import LayeredLedger.Proofs.Footprint
import LayeredLedger.Proofs.LimitRules

/-!
# Recorded usage

A request that settles at once spends principal amounts from the accounts it debits. What it
spends from an account is recorded as credits on the limit layers of the account, and nothing else
is recorded there. A reset takes back what it finds there.

* `EntryRequest.SpendsFrom`, `TransactionRequest.spent`: what a request spends;
* `Metadata.SetsLimit`, `IsDraft.setsLimit`: the limit that is asked for is the limit of the
  transaction;
* `Chart.HasPayer`: an account whose usage can be recorded;
* **`IsDraft.net_usage`**: what is spent is what is recorded;
* **`LedgerService.net_reset`**, `LedgerService.netAt_dailyReset`: a reset takes back what is
  recorded.
-/

namespace LayeredLedger

/-! ## What is asked for -/

/-- The entry spends from an account: it debits a principal amount that counts against limits. -/
def EntryRequest.SpendsFrom (r : EntryRequest) (chart : Chart) (a : Account) : Prop :=
  r.kind? = some .amount ∧ ¬r.skipsLimits ∧ chart.account? r.debit = some a

instance (r : EntryRequest) (chart : Chart) (a : Account) : Decidable (r.SpendsFrom chart a) :=
  inferInstanceAs (Decidable (_ ∧ _ ∧ _))

namespace TransactionRequest

/-- The request spends from an account without waiting for completion. -/
def SpendsFrom (request : TransactionRequest) (chart : Chart) (a : Account) : Prop :=
  request.shape.pending = false ∧ ∃ r ∈ request.entries, r.SpendsFrom chart a

/-- What the request spends from an account without waiting for completion, in units. -/
def spent (request : TransactionRequest) (chart : Chart) (a : Account) : Int :=
  if request.shape.pending then 0
  else (request.entries.map fun r =>
    if r.SpendsFrom chart a then r.amount.amount.units else 0).sum

theorem spendsFrom_of_spent_ne_zero {request : TransactionRequest} {chart : Chart} {a : Account}
    (h : request.spent chart a ≠ 0) : request.SpendsFrom chart a := by
  unfold spent at h
  split at h
  · exact absurd rfl h
  · rename_i hpending
    refine ⟨by simpa using hpending, ?_⟩
    by_contra hnone
    refine h (List.sum_eq_zero fun n hn => ?_)
    obtain ⟨r, hr, rfl⟩ := List.mem_map.1 hn
    exact if_neg fun hspends => hnone ⟨r, hr, hspends⟩

end TransactionRequest

/-- The metadata ask for a limit, and no other key is shown as the key of the limit. -/
def Metadata.SetsLimit (m : Metadata) (kind : LimitKind) (limit : Decimal) : Prop :=
  ((m.value? kind.tagKey.name).bind fun value => Decimal.parse? (Text.trim value)) = some limit ∧
    ∀ kv ∈ m.toList, shownKey kv.1 = kind.tagKey.name → kv.1 = kind.tagKey.name

instance (m : Metadata) (kind : LimitKind) (limit : Decimal) : Decidable (m.SetsLimit kind limit) :=
  inferInstanceAs (Decidable (_ ∧ _))

/-! ## Limits -/

theorem LimitKind.tagKey_clean (kind : LimitKind) :
    ':' ∉ kind.tagKey.name.toList ∧ Text.trim kind.tagKey.name = kind.tagKey.name := by
  cases kind <;> decide

theorem Tags.get?_limit_add {text key value : String} (hp : pair? text = some (key, value))
    {kind : LimitKind} (hne : key ≠ kind.tagKey.name) (tags : Tags) :
    (tags.add text).get? kind.tagKey.name = tags.get? kind.tagKey.name :=
  get?_add_of_ne (by simpa [hp] using hne)

/-- A created transaction sets the limit that the metadata ask for. -/
theorem IsDraft.setsLimit {s : LedgerService} {request : TransactionRequest} {chart : Chart}
    {t : Transaction} {strategy : Strategy} {plans : List EntryPlan}
    (hd : IsDraft s request chart t strategy plans) {kind : LimitKind} {limit : Decimal}
    (h : request.metadata.SetsLimit kind limit) : t.SetsLimit kind limit := by
  obtain ⟨hvalue, halone⟩ := h
  obtain ⟨value, hvalue, hparse⟩ := Option.bind_eq_some_iff.1 hvalue
  obtain ⟨hkey, htrim⟩ := kind.tagKey_clean
  rw [Transaction.SetsLimit, hd.tags,
    Tags.get?_limit_add (pair?_typeTag _) (by cases kind <;> decide),
    Tags.get?_limit_add (pair?_groupTag _) (by cases kind <;> decide),
    Metadata.get?_tags hvalue hkey htrim halone]
  rw [Option.bind_some]
  exact hparse

/-- A reversal has the limit of what it takes back. -/
theorem Transaction.get?_limit_reversal (t : Transaction) (reference : String)
    (kind : LimitKind) : (t.reversal reference).tags.get? kind.tagKey.name =
      t.tags.get? kind.tagKey.name := by
  have hp : pair? ("reverses:" ++ t.detail) = some ("reverses", Text.trim t.detail) :=
    pair?_append t.detail (by decide) (by decide) (by decide)
  have hne : "reverses" ≠ kind.tagKey.name := by cases kind <;> decide
  rw [tags_reversal, Tags.get?_limit_add hp hne]

/-! ## Single legs -/

theorem EntryPlan.layer_ne_usageLayer (p : EntryPlan) (a : Account) {band : Band}
    {kind : LimitKind} (hne : band ≠ kind.band) : p.layer band ≠ kind.usageLayer a :=
  fun h => hne (Layer.of_injective h).1

theorem net_eq_zero_of_layer {legs : List EntrySpec} {layer l : Layer} (hne : layer ≠ l)
    (h : ∀ x ∈ legs, x.layer = layer) (who : Account → Bool) :
    net who l (legs.map EntrySpec.posting) = 0 := by
  refine net_eq_zero _ _ fun q hq => ?_
  obtain ⟨x, hx, rfl⟩ := List.mem_map.1 hq
  rw [← h x hx] at hne
  exact hne

/-- Usage is a credit of the payer. -/
theorem net_usageOn (p : EntryPlan) {a bridge : Account} (hne : bridge.id ≠ a.id)
    (layer l : Layer) :
    net (fun x => x.id = a.id) l ((usageOn p bridge layer).map EntrySpec.posting) =
      if p.debit.id = a.id ∧ layer = l then -p.amount.units else 0 := by
  simp [usageOn, EntrySpec.debit, EntrySpec.credit, EntrySpec.untagged, EntrySpec.posting,
    Posting.signedUnits, hne]

/-- The reset is on the other side of the usage. -/
theorem oriented_resetSide (side : Side) (usage : Decimal) :
    (resetSide side usage).oriented usage.abs.units = -side.oriented usage.units := by
  rw [Decimal.units_abs]
  by_cases hneg : usage.isNegative = true
  · have hlt := Decimal.isNegative_iff.1 hneg
    rw [resetSide, if_pos hneg, ← Side.oriented_neg]
    congr 1
    omega
  · have hle : ¬usage.units < 0 := fun h => hneg (Decimal.isNegative_iff.2 h)
    rw [resetSide, if_neg hneg, Side.oriented_opposite]
    congr 2
    omega

/-! ## Accounts with usage -/

section UsageAccount

variable {chart : Chart} {known : Set Account} {a : Account}

theorem mem_usageAccounts : a ∈ usageAccounts chart ↔
    a ∈ chart.accounts.toList ∧ a.holdsBalances = true ∧ a.isBridge = false := by
  simp [usageAccounts]

theorem mem_known_of_mem_usageAccounts (hchart : chart.Within known)
    (ha : a ∈ usageAccounts chart) : a ∈ known :=
  hchart.account a (mem_usageAccounts.1 ha).1

theorem bridge_id_ne_of_mem_usageAccounts (hknown : known.InjOn Account.id)
    (hchart : chart.Within known) (ha : a ∈ usageAccounts chart) {currency : CurrencyCode}
    {role : BridgeRole} {b : Account} (hb : chart.bridge? currency role = some b) :
    b.id ≠ a.id := by
  intro hid
  obtain rfl := hknown (hchart.bridge? hb) (mem_known_of_mem_usageAccounts hchart ha) hid
  have hbridges : Chart.Bridges b currency role := by simpa using List.find?_some hb
  have hbridge := (mem_usageAccounts.1 ha).2.2
  rw [Account.isBridge, Account.bridgeRole?, hbridges.1] at hbridge
  cases hbridge

end UsageAccount

/-! ## Payers -/

/-- The chart has a final account, and an asset bridge against which its usage is recorded. -/
structure Chart.HasPayer (chart : Chart) (a : Account) : Prop where
  lists : chart.Lists a
  final : a.kind = .final
  bridge : ∃ b, chart.bridge? a.currency .asset = some b

theorem Chart.HasPayer.isBridge_eq {chart : Chart} {a : Account} (ha : chart.HasPayer a) :
    a.isBridge = false := by
  simp [Account.isBridge, Account.bridgeRole?, ha.final]

theorem Chart.HasPayer.mem_usageAccounts {chart : Chart} {a : Account} (ha : chart.HasPayer a) :
    a ∈ usageAccounts chart :=
  LayeredLedger.mem_usageAccounts.2 ⟨(Keyed.get?_eq_some_iff.1 ha.lists).1,
    by simp [Account.holdsBalances, ha.final], ha.isBridge_eq⟩

theorem SmallLedger.hasPayer {a : Account} (ha : a ∈ accounts) (hfinal : a.kind = .final) :
    chart.HasPayer a where
  lists := (by decide +kernel : ∀ a ∈ accounts, chart.account? a.code = some a) a ha
  final := hfinal
  bridge := ⟨assetBridge, (by decide +kernel :
    ∀ a ∈ accounts, chart.bridge? a.currency .asset = some assetBridge) a ha⟩

section Payer

variable {s : LedgerService} {chart : Chart} {known : Set Account} {a : Account}
  (hknown : known.InjOn Account.id) (hchart : chart.Within known) (ha : chart.HasPayer a)

include hchart ha

theorem Chart.HasPayer.mem : a ∈ known := hchart.account? ha.lists

include hknown

/-! ## What is recorded -/

namespace IsPlan

variable {p : EntryPlan} (hp : IsPlan s chart p)

include hp

/-- The account spends if it is the payer of a principal amount that counts. -/
theorem spendsFrom_iff : p.request.SpendsFrom chart a ↔
    (p.request.kind? = some .amount ∧ ¬p.request.skipsLimits ∧ ¬p.debit.isBridge) ∧
      p.debit.id = a.id := by
  have hdebit := Chart.finalAccount_eq_ok hp.debit
  rw [EntryRequest.SpendsFrom, hdebit, Option.some.injEq]
  constructor
  · rintro ⟨hkind, hskips, rfl⟩
    exact ⟨⟨hkind, hskips, by simp [ha.isBridge_eq]⟩, rfl⟩
  · rintro ⟨⟨hkind, hskips, -⟩, hid⟩
    exact ⟨hkind, hskips, hknown (hchart.account? hdebit) (ha.mem hchart) hid⟩

/-- The usage of the payer is recorded on its limit layers, against a bridge that is there. -/
theorem exists_bridge (hid : p.debit.id = a.id) : (∃ b, p.assetBridge? = some b) ∧
    ∀ band, p.layer band = .of band a.currencyId := by
  obtain rfl : p.debit = a :=
    hknown (hchart.account? (Chart.finalAccount_eq_ok hp.debit)) (ha.mem hchart) hid
  refine ⟨?_, fun band => ?_⟩
  · obtain ⟨b, hb⟩ := ha.bridge
    rw [hp.debit_currency] at hb
    exact ⟨b, (hp.bridge .asset).trans hb⟩
  · rw [hp.currencyId_eq hp.debit_registered hp.debit_currency]
    rfl

/-- A plan records what its request spends from an account. -/
theorem net_usageLegs (kind : LimitKind) :
    net (fun x => x.id = a.id) (kind.usageLayer a) ((usageLegs p).map EntrySpec.posting) =
      -if p.request.SpendsFrom chart a then p.amount.units else 0 := by
  simp only [hp.spendsFrom_iff hknown hchart ha]
  unfold usageLegs
  by_cases hcounts : p.request.kind? = some .amount ∧ ¬p.request.skipsLimits ∧ ¬p.debit.isBridge
  · rw [if_pos hcounts]
    have hne : ∀ b, p.assetBridge? = some b → b.id ≠ a.id := fun b hb =>
      bridge_id_ne_of_mem_usageAccounts hknown hchart ha.mem_usageAccounts
        ((hp.bridge .asset).symm.trans hb)
    by_cases hid : p.debit.id = a.id
    · obtain ⟨⟨b, hb⟩, hlayer⟩ := hp.exists_bridge hknown hchart ha hid
      simp only [hb, List.map_append, net_append, net_usageOn p (hne b hb), hlayer]
      cases kind <;>
        simp [hcounts, hid, LimitKind.usageLayer, LimitKind.band, Layer.of, Band.offset]
    · cases hb : p.assetBridge? with
      | none => simp [hid]
      | some b => simp [net_usageOn p (hne b hb), hid]
  · rw [if_neg hcounts, if_neg fun h => hcounts h.1]
    rfl

theorem net_directLegs (kind : LimitKind) :
    net (fun x => x.id = a.id) (kind.usageLayer a) ((directLegs p).map EntrySpec.posting) =
      -if p.request.SpendsFrom chart a then p.amount.units else 0 := by
  have hbase : ∀ x ∈ transferLegs p (p.layer .base), x.layer = p.layer .base := by
    simp [transferLegs, EntrySpec.debit, EntrySpec.credit, EntrySpec.untagged]
  have hfee : ∀ x ∈ feeLegs p, x.layer = p.layer .fee := by
    unfold feeLegs
    split <;> simp [transferLegs, EntrySpec.debit, EntrySpec.credit, EntrySpec.untagged]
  rw [directLegs, List.map_append, List.map_append, net_append, net_append,
    hp.net_usageLegs hknown hchart ha,
    net_eq_zero_of_layer (p.layer_ne_usageLayer a (by cases kind <;> decide)) hbase,
    net_eq_zero_of_layer (p.layer_ne_usageLayer a (by cases kind <;> decide)) hfee,
    zero_add, zero_add]

end IsPlan

namespace IsDraft

variable {request : TransactionRequest} {t : Transaction} {strategy : Strategy}
  {plans : List EntryPlan} (hd : IsDraft s request chart t strategy plans)

include hd

/-- **What is spent is what is recorded.** -/
theorem net_usage (kind : LimitKind) :
    net (fun x => x.id = a.id) (kind.usageLayer a) t.postings = -request.spent chart a := by
  have htakes := strategyFor?_eq_some.1 hd.strategy_eq
  rw [hd.postings, net_flatMap]
  by_cases hdirect : strategy = .direct
  · -- plan by plan, what the request of the plan spends
    subst hdirect
    have hpending : request.shape.pending = false := by simpa [Strategy.takes] using htakes
    rw [TransactionRequest.spent, if_neg (by simp [hpending]), ← hd.requests, List.map_map,
      List.sum_neg, List.map_map]
    refine congrArg List.sum (List.map_congr_left fun p hp => ?_)
    exact (hd.plan p hp).net_directLegs hknown hchart ha kind
  · -- nothing is spent, and no leg is on a limit layer
    have hpending : request.shape.pending = true := by
      cases strategy <;> simp_all [Strategy.takes]
    rw [TransactionRequest.spent, if_pos hpending, neg_zero]
    refine List.sum_eq_zero fun n hn => ?_
    obtain ⟨p, hp, rfl⟩ := List.mem_map.1 hn
    refine net_eq_zero _ _ fun q hq => ?_
    obtain ⟨x, hx, rfl⟩ := List.mem_map.1 hq
    obtain ⟨band, hband, hlayer⟩ := (hd.isLegOf hp hx).layer
    change x.layer ≠ _
    rw [hlayer]
    exact p.layer_ne_usageLayer a (Strategy.band_ne_limit hdirect hband kind)

end IsDraft

end Payer

/-! ## What a reset takes back -/

namespace LedgerService

variable {s : LedgerService} {chart : Chart} {known : Set Account} {a : Account}
  {store : BalanceStore} {journal : JournalId}

/-- The store is asked for the usage of an account of a registered currency. -/
theorem resetSpecs_eq_ok {legs : List EntrySpec} :
    s.resetSpecs journal chart store.lookup a = .ok legs ↔ s.Registers a ∧
      ∃ usage, store.balance journal a (LimitKind.daily.usageLayer a) = .ok usage ∧
        usageReset chart a (LimitKind.daily.usageLayer a) usage = .ok legs := by
  constructor
  · intro h
    obtain ⟨id, hid, h⟩ := bind_eq_ok.1 h
    obtain ⟨answer, hanswer, h⟩ := bind_eq_ok.1 h
    obtain ⟨hregisters, rfl⟩ := registeredId_eq_ok.1 (orError_eq_ok.1 hid)
    rw [orOverflow_eq_ok, BalanceStore.lookup_single] at hanswer
    obtain ⟨usage, husage, rfl⟩ := map_eq_ok.1 hanswer
    exact ⟨hregisters, usage, husage, orError_eq_ok.1 h⟩
  · rintro ⟨hregisters, usage, husage, h⟩
    refine bind_eq_ok.2 ⟨_, orError_eq_ok.2 (registeredId_eq_ok.2 ⟨hregisters, rfl⟩),
      bind_eq_ok.2 ⟨.ok usage, orOverflow_eq_ok.2 ?_, orError_eq_ok.2 h⟩⟩
    rw [BalanceStore.lookup_single]
    exact map_eq_ok.2 ⟨usage, husage, rfl⟩

variable (hknown : known.InjOn Account.id) (hchart : chart.Within known)
  (ha : a ∈ usageAccounts chart)

include hknown hchart ha

/-- A reset records for an account what it takes back from the account. -/
theorem net_usageReset {b : Account} (hb : b ∈ known) {layer : Layer} {usage : Decimal}
    {legs : List EntrySpec} (h : usageReset chart b layer usage = .ok legs) (l : Layer) :
    net (fun x => x.id = a.id) l (legs.map EntrySpec.posting) =
      if b = a ∧ layer = l then -a.side.oriented usage.units else 0 := by
  unfold usageReset at h
  split at h
  · rename_i hzero
    obtain rfl := Except.ok.inj h
    simp [Decimal.units_eq_zero_iff.2 hzero]
  split at h
  · cases h
  · rename_i bridge hbridge
    obtain rfl := Except.ok.inj h
    have hne := bridge_id_ne_of_mem_usageAccounts hknown hchart ha hbridge
    have hid : b.id = a.id ↔ b = a :=
      ⟨hknown hb (mem_known_of_mem_usageAccounts hchart ha), fun h => h ▸ rfl⟩
    by_cases hsame : b = a ∧ layer = l
    · obtain ⟨rfl, rfl⟩ := hsame
      simp [EntrySpec.untagged, EntrySpec.posting, hne, Posting.signedUnits_eq,
        oriented_resetSide]
    · simp [EntrySpec.untagged, EntrySpec.posting, hne, hid, hsame]

theorem net_resetSpecs (hsides : store.KeepsSides known)
    (hread : store.ReadsExactly ⟨journal, a.id, LimitKind.daily.usageLayer a⟩) {b : Account}
    (hb : b ∈ known) {legs : List EntrySpec}
    (h : s.resetSpecs journal chart store.lookup b = .ok legs) :
    net (fun x => x.id = a.id) (LimitKind.daily.usageLayer a) (legs.map EntrySpec.posting) =
      if b = a then -store.netAt ⟨journal, a.id, LimitKind.daily.usageLayer a⟩ else 0 := by
  obtain ⟨-, usage, husage, h⟩ := resetSpecs_eq_ok.1 h
  rw [net_usageReset hknown hchart ha hb h]
  by_cases hsame : b = a
  · subst hsame
    have hunits := (hsides.balance hb hread).units_eq husage
    rw [if_pos ⟨rfl, rfl⟩, if_pos rfl, hunits, Side.oriented_oriented]
  · rw [if_neg fun h => hsame h.1, if_neg hsame]

/-- **A reset takes back what is recorded.** -/
theorem net_reset (hsides : store.KeepsSides known)
    (hread : store.ReadsExactly ⟨journal, a.id, LimitKind.daily.usageLayer a⟩)
    {specs : List (List EntrySpec)}
    (h : (usageAccounts chart).mapM (s.resetSpecs journal chart store.lookup) = .ok specs) :
    net (fun x => x.id = a.id) (LimitKind.daily.usageLayer a)
        (specs.flatten.map EntrySpec.posting) =
      -store.netAt ⟨journal, a.id, LimitKind.daily.usageLayer a⟩ := by
  have hnodup : (usageAccounts chart).Nodup :=
    (chart.accounts.ascending.imp fun hlt e => ne_of_key_lt hlt (congrArg Account.code e)).filter _
  -- one account of the chart counts, and it is there once
  have heach := map_eq_of_mapM h fun b hb legs hlegs =>
    net_resetSpecs hknown hchart ha hsides hread (mem_known_of_mem_usageAccounts hchart hb) hlegs
  rw [List.map_flatten, ← List.flatMap_def, net_flatMap, heach,
    List.sum_map_eq_nsmul_single a _ fun b hne _ => if_neg hne, if_pos rfl,
    List.count_eq_one_of_mem hnodup ha, one_nsmul]

variable {reference : String}

/-- After a reset nothing is recorded in the journal, and the same as before in others. -/
theorem netAt_dailyReset (hsides : store.KeepsSides known)
    (hread : store.ReadsExactly ⟨journal, a.id, LimitKind.daily.usageLayer a⟩) {t : Transaction}
    (h : s.dailyReset journal chart reference store.lookup = .ok (some t))
    (hexact : store.PostsExactly t.journal t.entries) {store' : BalanceStore}
    (happly : store.apply t = .ok store') (j : JournalId) :
    store'.netAt ⟨j, a.id, LimitKind.daily.usageLayer a⟩ =
      if journal = j then 0 else store.netAt ⟨j, a.id, LimitKind.daily.usageLayer a⟩ := by
  obtain ⟨specs, hspecs, hpost, -⟩ := dailyReset_eq_some h
  have hnet := net_reset hknown hchart ha hsides hread hspecs
  rw [BalanceStore.netAt_apply happly hexact, Transaction.netAt]
  obtain ⟨-, rfl⟩ := Transaction.post_eq_ok.1 hpost
  rw [← Transaction.postings_entryOf (Transaction.start journal reference _)] at hnet
  change _ + (if journal = j then net _ _ (List.map _ (List.map _ _)) else 0) = _
  split
  · rename_i hj
    rw [hnet, hj, add_neg_cancel]
  · rw [add_zero]

/-- If there is nothing to reset, nothing is recorded. -/
theorem netAt_of_dailyReset (hsides : store.KeepsSides known)
    (hread : store.ReadsExactly ⟨journal, a.id, LimitKind.daily.usageLayer a⟩)
    (h : s.dailyReset journal chart reference store.lookup = .ok none) :
    store.netAt ⟨journal, a.id, LimitKind.daily.usageLayer a⟩ = 0 := by
  obtain ⟨specs, hspecs, hnone⟩ := dailyReset_eq_none h
  have hnet := net_reset hknown hchart ha hsides hread hspecs
  rw [hnone] at hnet
  exact neg_eq_zero.1 hnet.symm

end LedgerService

end LayeredLedger
