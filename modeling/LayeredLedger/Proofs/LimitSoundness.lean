import LayeredLedger.Proofs.Balances
import LayeredLedger.Proofs.Footprint
import LayeredLedger.Proofs.LimitRules
import LayeredLedger.Proofs.SmallLedger

/-!
# Limits hold after posting

A limit rule computes what the usage of an account will be, from an answer of the store and from
the entries of the transaction. The store computes it again, from debits and credits, when the
transaction is posted. Without rounding both come to the same number, so the limit that the rule
enforced is one that the store keeps.

* `Transaction.IsVersionOf`: the same entries with other tags;
* `LedgerService.Returned`: the service created the transaction, or reversed one it returned;
* `BalanceStore.TakesExactly`: nothing is rounded on the way of a transaction into a store;
* `BalanceStore.TakesExactly.exists_usageWithin_iff`: what the rule asks for, in exact numbers;
* `BalanceStore.TakesExactly.projected`: the store comes to what the rule projected;
* **`limit_sound`**: after posting, the usage of every account is within the limit.
-/

namespace LayeredLedger

/-! ## Transactions that a service returns -/

/-- The same transaction at another time: its tags and its date may have changed. -/
structure Transaction.IsVersionOf (version t : Transaction) : Prop where
  journal : version.journal = t.journal
  entries : version.entries = t.entries

theorem Transaction.IsVersionOf.refl (t : Transaction) : t.IsVersionOf t := ⟨rfl, rfl⟩

/-- The service returned the transaction, with rules that asked a lookup: it was created, or it
takes back a version of a transaction that the service returned before. -/
inductive LedgerService.Returned (s : LedgerService) (known : Set Account) :
    BalanceLookup → Transaction → Prop where
  | created {request : TransactionRequest} {chart : Chart} {lookup : BalanceLookup}
      {t : Transaction} (hchart : chart.Within known)
      (hcreate : s.create request chart lookup = .ok t) : Returned s known lookup t
  | reversed {earlier lookup : BalanceLookup} {original version after r : Transaction}
      {reference : String} (horiginal : Returned s known earlier original)
      (hversion : version.IsVersionOf original)
      (hreverse : s.reverse version reference lookup = (.ok (.reversed r), after)) :
      Returned s known lookup r

namespace LedgerService.Returned

variable {s : LedgerService} {known : Set Account} {lookup : BalanceLookup} {t : Transaction}

theorem evaluate (h : s.Returned known lookup t) : s.rules.evaluate t lookup = .ok () := by
  cases h with
  | created hchart hcreate => exact (create_eq_ok.1 hcreate).2.2
  | reversed horiginal hversion hreverse =>
    exact (approve_eq_ok.1 (reverse_eq_reversed.1 hreverse).2.1).2

/-- Every entry is one of a created transaction, except for its side. -/
theorem exists_created (h : s.Returned known lookup t) :
    ∃ request chart created strategy plans, chart.Within known ∧
      IsDraft s request chart created strategy plans ∧
      ∀ e ∈ t.entries, ∃ e' ∈ created.entries, e'.account = e.account ∧ e'.layer = e.layer := by
  induction h with
  | @created request chart _ t hchart hcreate =>
    obtain ⟨strategy, plans, hd⟩ := exists_isDraft (create_eq_ok.1 hcreate).1
    exact ⟨request, chart, t, strategy, plans, hchart, hd, fun e he => ⟨e, he, rfl, rfl⟩⟩
  | reversed _ hversion hreverse ih =>
    obtain ⟨request, chart, created, strategy, plans, hchart, hd, hentries⟩ := ih
    refine ⟨request, chart, created, strategy, plans, hchart, hd, fun e he => ?_⟩
    obtain rfl := eq_of_approve_reversal (reverse_eq_reversed.1 hreverse).2.1
    obtain ⟨e', he', rfl⟩ := List.mem_map.1 he
    exact hentries e' (hversion.entries ▸ he')

theorem within (h : s.Returned known lookup t) : t.Within known := by
  obtain ⟨request, chart, created, strategy, plans, hchart, hd, hentries⟩ := h.exists_created
  intro e he
  obtain ⟨e', he', haccount, -⟩ := hentries e he
  rw [← haccount]
  exact hd.within hchart e' he'

/-- What an account other than a bridge has on its limit layer counts as usage. -/
theorem counts (h : s.Returned known lookup t) {kind : LimitKind} {e : Entry} (he : e ∈ t.entries)
    (hlayer : e.layer = kind.usageLayer e.account) (hbridge : e.account.isBridge = false) :
    kind.counts (s.currencies.layers [kind.band]) e = true := by
  obtain ⟨request, chart, created, strategy, plans, -, hd, hentries⟩ := h.exists_created
  obtain ⟨e', he', haccount, -⟩ := hentries e he
  have hholds := hd.holdsBalances he'
  have hregistered := (hd.registers he').1
  rw [haccount] at hholds hregistered
  have hmem : e.layer ∈ s.currencies.layers [kind.band] := by
    rw [hlayer]
    exact CurrencyRegistry.mem_layers hregistered (List.mem_singleton.2 rfl)
  have hband : e.layer.isInBand kind.band = true := by
    rw [hlayer, LimitKind.usageLayer, Layer.isInBand_of, decide_eq_true rfl]
  simp [LimitKind.counts, hband, hmem, hholds, hbridge]

end LedgerService.Returned

/-! ## Two ways to the same usage -/

/-- What the rule reads from a store. -/
theorem usageWithin_lookup_iff {store : BalanceStore} {t : Transaction} {e : Entry}
    {kind : LimitKind} (hlayer : e.layer = kind.usageLayer e.account) {limit : Decimal}
    {p : LimitProjection} : kind.UsageWithin store.lookup t e.account limit p ↔
      store.balance t.journal e.account e.layer = .ok p.current ∧
        transactionImpact t e.account.id e.layer = .ok p.impact ∧
        p.current.add p.impact = .ok p.projected ∧ p.projected ≤ limit := by
  unfold LimitKind.UsageWithin
  rw [← hlayer, BalanceStore.lookup_single_eq_ok]
  constructor
  · rintro ⟨himpact, hcurrent, hproject, hle⟩
    exact ⟨hcurrent, himpact, (LimitKind.parts_of_projectBalance hproject).2.2, hle⟩
  · rintro ⟨hcurrent, himpact, hsum, hle⟩
    exact ⟨himpact, hcurrent, map_eq_ok.2 ⟨_, hsum, rfl⟩, hle⟩

/-- Nothing is rounded when the rules look at a transaction, when it is posted, and when the
balances that it changes are read before and after. -/
structure BalanceStore.TakesExactly (store : BalanceStore) (t : Transaction) : Prop where
  posts : store.PostsExactly t.journal t.entries
  before : ∀ e ∈ t.entries, store.ReadsExactly (keyOf t.journal e)
  after : ∀ store', store.apply t = .ok store' →
    ∀ e ∈ t.entries, store'.ReadsExactly (keyOf t.journal e)
  impact : ∀ e ∈ t.entries,
    Gives (transactionImpact t e.account.id e.layer) (t.impactUnits e.account.id e.layer)
  projection : ∀ e ∈ t.entries,
    ∀ current, store.balance t.journal e.account e.layer = .ok current →
    ∀ impact, transactionImpact t e.account.id e.layer = .ok impact → current.AddsExactly impact

namespace BalanceStore.TakesExactly

variable {store : BalanceStore} {t : Transaction}

instance (store : BalanceStore) (t : Transaction) : Decidable (store.TakesExactly t) :=
  decidable_of_iff
    (store.PostsExactly t.journal t.entries ∧
      (∀ e ∈ t.entries, store.ReadsExactly (keyOf t.journal e)) ∧
      (∀ store', store.apply t = .ok store' →
        ∀ e ∈ t.entries, store'.ReadsExactly (keyOf t.journal e)) ∧
      (∀ e ∈ t.entries,
        Gives (transactionImpact t e.account.id e.layer) (t.impactUnits e.account.id e.layer)) ∧
      ∀ e ∈ t.entries, ∀ current, store.balance t.journal e.account e.layer = .ok current →
        ∀ impact, transactionImpact t e.account.id e.layer = .ok impact →
          current.AddsExactly impact)
    ⟨fun ⟨h₁, h₂, h₃, h₄, h₅⟩ => ⟨h₁, h₂, h₃, h₄, h₅⟩,
      fun h => ⟨h.posts, h.before, h.after, h.impact, h.projection⟩⟩

theorem exists_apply (h : store.TakesExactly t) : ∃ store', store.apply t = .ok store' :=
  h.posts.exists_foldlM

variable (h : store.TakesExactly t) {known : Set Account} (hknown : known.InjOn Account.id)
  (hsides : store.KeepsSides known) (ht : t.Within known)

include h hknown hsides ht

/-- The rule projects the net that is kept and the net that is posted, as the account counts
them. -/
theorem units_projected {e : Entry} (he : e ∈ t.entries) {current impact projected : Decimal}
    (hcurrent : store.balance t.journal e.account e.layer = .ok current)
    (himpact : transactionImpact t e.account.id e.layer = .ok impact)
    (hsum : current.add impact = .ok projected) :
    projected.units = e.account.side.oriented
      (store.netAt (keyOf t.journal e) + t.netAt (keyOf t.journal e)) := by
  have hnet : t.impactUnits e.account.id e.layer =
      e.account.side.oriented (t.netAt (keyOf t.journal e)) :=
    Transaction.impactUnits_eq_netAt fun x hx hid => hknown (ht x hx) (ht e he) hid
  rw [(h.projection e he _ hcurrent _ himpact).units_eq hsum,
    (hsides.balance (ht e he) (h.before e he)).units_eq hcurrent,
    (h.impact e he).units_eq himpact, hnet, Side.oriented_add]
  rfl

/-- The usage of an account stays within a limit if the exact net does. -/
theorem exists_usageWithin_iff {e : Entry} (he : e ∈ t.entries) {kind : LimitKind}
    (hlayer : e.layer = kind.usageLayer e.account) {limit : Decimal} :
    (∃ p, kind.UsageWithin store.lookup t e.account limit p) ↔ e.account.side.oriented
      (store.netAt (keyOf t.journal e) + t.netAt (keyOf t.journal e)) ≤ limit.units := by
  constructor
  · rintro ⟨p, hp⟩
    obtain ⟨hcurrent, himpact, hsum, hle⟩ := (usageWithin_lookup_iff hlayer).1 hp
    rw [← h.units_projected hknown hsides ht he hcurrent himpact hsum]
    exact Decimal.le_iff_units.1 hle
  · intro hle
    obtain ⟨current, hcurrent, -⟩ := gives_iff.1 (hsides.balance (ht e he) (h.before e he))
    obtain ⟨impact, himpact, -⟩ := gives_iff.1 (h.impact e he)
    obtain ⟨projected, hsum, -⟩ := gives_iff.1 (h.projection e he _ hcurrent _ himpact)
    rw [← h.units_projected hknown hsides ht he hcurrent himpact hsum] at hle
    exact ⟨⟨current, impact, projected⟩, (usageWithin_lookup_iff hlayer).2
      ⟨hcurrent, himpact, hsum, Decimal.le_iff_units.2 hle⟩⟩

/-- **The store comes to what the rule projected.** -/
theorem projected {store' : BalanceStore} (happly : store.apply t = .ok store') {e : Entry}
    (he : e ∈ t.entries) {kind : LimitKind} (hlayer : e.layer = kind.usageLayer e.account)
    {limit : Decimal} {p : LimitProjection}
    (hp : kind.UsageWithin store.lookup t e.account limit p) :
    Gives (store'.balance t.journal e.account e.layer) p.projected.units := by
  obtain ⟨hcurrent, himpact, hsum, -⟩ := (usageWithin_lookup_iff hlayer).1 hp
  rw [h.units_projected hknown hsides ht he hcurrent himpact hsum, ← netAt_apply happly h.posts]
  exact (hsides.apply hknown ht happly).balance (ht e he) (h.after store' happly e he)

end BalanceStore.TakesExactly

/-- The rules saw the usage of every account that a transaction uses a limit of. -/
theorem LedgerService.Returned.exists_usageWithin {s : LedgerService}
    (hrules : s.rules = .standard s.currencies) {known : Set Account}
    (hknown : known.InjOn Account.id) {lookup : BalanceLookup} {t : Transaction}
    (h : s.Returned known lookup t) {kind : LimitKind} {limit : Decimal}
    (hlimit : t.SetsLimit kind limit) {e : Entry} (he : e ∈ t.entries)
    (hlayer : e.layer = kind.usageLayer e.account) (hbridge : e.account.isBridge = false) :
    ∃ p, kind.UsageWithin lookup t e.account limit p := by
  obtain ⟨e', he', hid, -, p, hp⟩ := usageWithin_of_evaluate (hrules ▸ h.evaluate) hlimit he
    (h.counts he hlayer hbridge)
  have hsame : e'.account = e.account := hknown (h.within e' he') (h.within e he) hid
  exact ⟨p, hsame ▸ hp⟩

/-! ## The main result -/

/-- **Limits hold after posting.** Under the standard rules, let a service that asks a store
create a transaction, or reverse one that it returned, and let the tags set a limit. Then the
transaction can be posted, and for every account other than a bridge with an entry on its limit
layer, the balance there is afterwards what the rule projected, and not above the limit. -/
theorem limit_sound {s : LedgerService} (hrules : s.rules = .standard s.currencies)
    {known : Set Account} (hknown : known.InjOn Account.id) {store : BalanceStore}
    (hsides : store.KeepsSides known) {t : Transaction}
    (hreturned : s.Returned known store.lookup t) (hexact : store.TakesExactly t)
    {kind : LimitKind} {limit : Decimal} (hlimit : t.SetsLimit kind limit) :
    ∃ store', store.apply t = .ok store' ∧
      ∀ e ∈ t.entries, e.layer = kind.usageLayer e.account → e.account.isBridge = false →
        ∃ p balance, kind.UsageWithin store.lookup t e.account limit p ∧
          store'.balance t.journal e.account e.layer = .ok balance ∧
          balance.SameValue p.projected ∧ balance ≤ limit := by
  obtain ⟨store', happly⟩ := hexact.exists_apply
  refine ⟨store', happly, fun e he hlayer hbridge => ?_⟩
  obtain ⟨p, hp⟩ := hreturned.exists_usageWithin hrules hknown hlimit he hlayer hbridge
  obtain ⟨balance, hbalance, hunits⟩ := gives_iff.1
    (hexact.projected hknown hsides hreturned.within happly he hlayer hp)
  have hle : p.projected ≤ limit := hp.2.2.2
  refine ⟨p, balance, hp, hbalance, hunits, ?_⟩
  rwa [Decimal.le_iff_units, hunits]

open SmallLedger in
/-- A transfer by somebody who has used ten dollars of the limit before. -/
theorem limit_sound_smallLedger :
    ∃ t store' balance,
      service.create (payment 40) chart usedTen.lookup = .ok t ∧ usedTen.apply t = .ok store' ∧
      store'.balance t.journal payer (.of .dailyLimit usdId) = .ok balance ∧ balance ≤ limit := by
  obtain ⟨t, ht, hrun⟩ := bind_eq_ok.1 (by decide +kernel : (do
    let t ← service.create (payment 40) chart usedTen.lookup
    return decide (usedTen.TakesExactly t ∧ t.SetsLimit .daily limit ∧
      ∃ e ∈ t.entries, e.account = payer ∧ e.layer = .of .dailyLimit usdId)) =
        (.ok true : Except Failure Bool))
  obtain ⟨hexact, hlimit, e, he, hpayer, hlayer⟩ := of_decide_eq_true (Except.ok.inj hrun)
  have hsides : usedTen.KeepsSides {a | a ∈ accounts} :=
    BalanceStore.KeepsSides.empty.set injOn_id (by simp [accounts]) _ _ _
  obtain ⟨store', happly, hsound⟩ := limit_sound rfl injOn_id hsides
    (.created (Chart.within_ofList fun _ ha => ha) ht) hexact hlimit
  obtain ⟨p, balance, -, hbalance, -, hle⟩ := hsound e he (by rw [hlayer, hpayer]; rfl)
    (by rw [hpayer]; rfl)
  rw [hpayer, hlayer] at hbalance
  exact ⟨t, store', balance, ht, happly, hbalance, hle⟩

end LayeredLedger
