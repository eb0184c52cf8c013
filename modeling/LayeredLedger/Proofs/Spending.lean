import LayeredLedger.Proofs.LimitSoundness
import LayeredLedger.Proofs.Usage

/-!
# Spending and the daily limit

A ledger starts empty. Transactions are created and reversed, resets end the days, and all that
is returned is posted at once. Then the limit layer of an account records what was spent from it
since the last reset: as it is for an account that grows by credits, and with the sign turned for
one that grows by debits. So the daily limit bounds the spending of the former, and does not bound
that of the latter.

* `DayEvent`, `spentSince`: what happened, and what was spent since the last reset;
* `DayRun`: the moments that the ledger goes through;
* `Transaction.Turns`, `DayInv`, `DayRun.inv`: what every step keeps true;
* `DayInv.spentSince_le`: a step that spends is within the limit;
* **`spending_within_limit`**: recorded usage is spending, and within the limit;
* `debit_payer_exceeds_limit`: the limit does not bound a payer that grows by debits.
-/

namespace LayeredLedger

/-! ## What happens -/

/-- What a transaction for the request adds to what is spent from an account. One that takes the
request back subtracts it. -/
def TransactionRequest.spentBy (request : TransactionRequest) (chart : Chart) (a : Account)
    (back : Bool) : Int :=
  if back then -request.spent chart a else request.spent chart a

/-- What happened on a ledger. -/
inductive DayEvent where
  /-- A transaction was posted that does what a request asks for, or takes it back. -/
  | posted (t : Transaction) (request : TransactionRequest) (back : Bool)
  /-- The daily usage of a journal was reset. -/
  | reset (journal : JournalId)

/-- What was spent from an account in a journal since the last reset, in units. The newest event
comes first. -/
def spentSince (chart : Chart) (journal : JournalId) (a : Account) : List DayEvent → Int
  | [] => 0
  | .posted t request back :: earlier =>
    (if t.journal = journal then request.spentBy chart a back else 0) +
      spentSince chart journal a earlier
  | .reset j :: earlier => if j = journal then 0 else spentSince chart journal a earlier

/-- The transactions set the same limits. -/
def Transaction.SameLimits (version t : Transaction) : Prop :=
  ∀ kind : LimitKind, version.tags.get? kind.tagKey.name = t.tags.get? kind.tagKey.name

/-- The moments that a ledger goes through, with what happened before, newest first. Calls ask the
store, what they return is posted without rounding, and calls that fail change nothing. A posted
transaction can be taken back as it is or was at any time, also if it takes back another one. -/
inductive DayRun (s : LedgerService) (chart : Chart) : BalanceStore → List DayEvent → Prop where
  | start : DayRun s chart ∅ []
  | create {store store' : BalanceStore} {events : List DayEvent} {request : TransactionRequest}
      {t : Transaction} (h : DayRun s chart store events)
      (hcreate : s.create request chart store.lookup = .ok t) (hexact : store.TakesExactly t)
      (happly : store.apply t = .ok store') :
      DayRun s chart store' (.posted t request false :: events)
  | reverse {store store' : BalanceStore} {events : List DayEvent} {request : TransactionRequest}
      {t version after r : Transaction} {back : Bool} {reference : String}
      (h : DayRun s chart store events) (hposted : .posted t request back ∈ events)
      (hversion : version.IsVersionOf t) (hlimits : version.SameLimits t)
      (hreverse : s.reverse version reference store.lookup = (.ok (.reversed r), after))
      (hexact : store.TakesExactly r) (happly : store.apply r = .ok store') :
      DayRun s chart store' (.posted r request (!back) :: events)
  | reset {store store' : BalanceStore} {events : List DayEvent} {journal : JournalId}
      {t : Transaction} {reference : String} (h : DayRun s chart store events)
      (hreads : ∀ a ∈ usageAccounts chart,
        store.ReadsExactly ⟨journal, a.id, LimitKind.daily.usageLayer a⟩)
      (hreset : s.dailyReset journal chart reference store.lookup = .ok (some t))
      (hexact : store.PostsExactly t.journal t.entries) (happly : store.apply t = .ok store') :
      DayRun s chart store' (.reset journal :: events)
  | nothingToReset {store : BalanceStore} {events : List DayEvent} {journal : JournalId}
      {reference : String} (h : DayRun s chart store events)
      (hreads : ∀ a ∈ usageAccounts chart,
        store.ReadsExactly ⟨journal, a.id, LimitKind.daily.usageLayer a⟩)
      (hreset : s.dailyReset journal chart reference store.lookup = .ok none) :
      DayRun s chart store (.reset journal :: events)

/-! ## What every step keeps true -/

/-- The transaction does what a request asks for, or takes it back. -/
structure Transaction.Turns (s : LedgerService) (chart : Chart) (known : Set Account)
    (t : Transaction) (request : TransactionRequest) (back : Bool) : Prop where
  returned : ∃ lookup, s.Returned known lookup t
  setsLimit : ∀ kind limit, request.metadata.SetsLimit kind limit → t.SetsLimit kind limit
  net_usage : ∀ a, chart.HasPayer a → ∀ kind : LimitKind,
    net (fun x => x.id = a.id) (kind.usageLayer a) t.postings = -request.spentBy chart a back

/-- What a run keeps true. -/
structure DayInv (s : LedgerService) (chart : Chart) (known : Set Account) (store : BalanceStore)
    (events : List DayEvent) : Prop where
  sides : store.KeepsSides known
  turns : ∀ t request back, .posted t request back ∈ events →
    t.Turns s chart known request back
  recorded : ∀ a, chart.HasPayer a → ∀ journal,
    store.netAt ⟨journal, a.id, LimitKind.daily.usageLayer a⟩ =
      -spentSince chart journal a events

section Steps

variable {s : LedgerService} {chart : Chart} {known : Set Account}
  (hknown : known.InjOn Account.id) (hchart : chart.Within known)

include hchart hknown in
theorem Transaction.Turns.create {request : TransactionRequest} {lookup : BalanceLookup}
    {t : Transaction} (h : s.create request chart lookup = .ok t) :
    t.Turns s chart known request false := by
  obtain ⟨strategy, plans, hd⟩ := exists_isDraft (LedgerService.create_eq_ok.1 h).1
  exact {
    returned := ⟨lookup, .created hchart h⟩
    setsLimit := fun _ _ => hd.setsLimit
    net_usage := fun a ha kind => hd.net_usage hknown hchart ha kind }

theorem Transaction.Turns.reverse {request : TransactionRequest} {lookup : BalanceLookup}
    {t version after r : Transaction} {back : Bool} {reference : String}
    (ht : t.Turns s chart known request back) (hversion : version.IsVersionOf t)
    (hlimits : version.SameLimits t)
    (h : s.reverse version reference lookup = (.ok (.reversed r), after)) :
    s.Returned known lookup r ∧ r.Turns s chart known request (!back) := by
  obtain ⟨earlier, hreturned⟩ := ht.returned
  have hreturned := LedgerService.Returned.reversed hreturned hversion h
  refine ⟨hreturned, ⟨_, hreturned⟩, fun kind limit hlimit => ?_, fun a ha kind => ?_⟩
  · have hsets := ht.setsLimit kind limit hlimit
    rw [LedgerService.eq_of_approve_reversal (LedgerService.reverse_eq_reversed.1 h).2.1,
      SetsLimit, get?_limit_reversal, hlimits kind]
    exact hsets
  · have hsame : version.postings = t.postings := by rw [postings, postings, hversion.entries]
    rw [LedgerService.eq_of_approve_reversal (LedgerService.reverse_eq_reversed.1 h).2.1,
      postings_reversal, net_opposite, hsame, ht.net_usage a ha kind]
    cases back <;> simp [TransactionRequest.spentBy]

namespace DayInv

variable {store store' : BalanceStore} {events : List DayEvent} {journal : JournalId}
  (hinv : DayInv s chart known store events)

include hinv hknown

theorem post {request : TransactionRequest} {t : Transaction} {back : Bool}
    (ht : t.Turns s chart known request back) (hexact : store.PostsExactly t.journal t.entries)
    (happly : store.apply t = .ok store') :
    DayInv s chart known store' (.posted t request back :: events) where
  sides := by
    obtain ⟨lookup, hreturned⟩ := ht.returned
    exact hinv.sides.apply hknown hreturned.within happly
  turns t' request' back' h := by
    rcases List.mem_cons.1 h with h | h
    · cases h
      exact ht
    · exact hinv.turns t' request' back' h
  recorded a ha journal := by
    rw [BalanceStore.netAt_apply happly hexact, hinv.recorded a ha journal, Transaction.netAt,
      ht.net_usage a ha .daily, spentSince]
    split <;> omega

omit hknown in
theorem reset (hsides : store'.KeepsSides known)
    (hnets : ∀ a, chart.HasPayer a → ∀ j,
      store'.netAt ⟨j, a.id, LimitKind.daily.usageLayer a⟩ =
        if journal = j then 0 else store.netAt ⟨j, a.id, LimitKind.daily.usageLayer a⟩) :
    DayInv s chart known store' (.reset journal :: events) where
  sides := hsides
  turns t' request' back' h := by
    rcases List.mem_cons.1 h with h | h
    · cases h
    · exact hinv.turns t' request' back' h
  recorded a ha j := by
    rw [hnets a ha j, spentSince, hinv.recorded a ha j]
    split <;> rfl

end DayInv

include hknown hchart

/-- **Every run keeps the invariant.** -/
theorem DayRun.inv {store : BalanceStore} {events : List DayEvent}
    (h : DayRun s chart store events) : DayInv s chart known store events := by
  induction h with
  | start => exact ⟨.empty, nofun, fun _ _ _ => rfl⟩
  | create _ hcreate hexact happly ih =>
    exact ih.post hknown (.create hknown hchart hcreate) hexact.posts happly
  | reverse _ hposted hversion hlimits hreverse hexact happly ih =>
    have ht := (ih.turns _ _ _ hposted).reverse hversion hlimits hreverse
    exact ih.post hknown ht.2 hexact.posts happly
  | reset _ hreads hreset hexact happly ih =>
    refine ih.reset
      (ih.sides.apply hknown (LedgerService.dailyReset_within hchart hreset).2 happly)
      fun a ha j => ?_
    exact LedgerService.netAt_dailyReset hknown hchart ha.mem_usageAccounts ih.sides
      (hreads a ha.mem_usageAccounts) hreset hexact happly j
  | nothingToReset _ hreads hreset ih =>
    refine ih.reset ih.sides fun a ha j => ?_
    split
    · rename_i hj
      subst hj
      exact LedgerService.netAt_of_dailyReset hknown hchart ha.mem_usageAccounts ih.sides
        (hreads a ha.mem_usageAccounts) hreset
    · rfl

/-! ## Within the limit -/

variable (hrules : s.rules = .standard s.currencies) {store store' : BalanceStore}
  {events : List DayEvent} {a : Account} (ha : chart.HasPayer a) (hside : a.side = .credit)
  {limit : Decimal} {journal : JournalId}

include hrules ha hside

/-- A transaction that spends leads to a usage within the limit. One that does not spend cannot
lead above it. -/
theorem DayInv.spentSince_le (hinv : DayInv s chart known store events)
    {request : TransactionRequest} {t : Transaction} {back : Bool}
    (ht : t.Turns s chart known request back) (hreturned : s.Returned known store.lookup t)
    (hexact : store.TakesExactly t) (happly : store.apply t = .ok store')
    (hbefore : spentSince chart journal a events ≤ limit.units)
    (hlimit : t.journal = journal → request.SpendsFrom chart a →
      request.metadata.SetsLimit .daily limit) :
    spentSince chart journal a (.posted t request back :: events) ≤ limit.units := by
  by_cases hspends : t.journal = journal ∧ 0 < request.spentBy chart a back
  · obtain ⟨rfl, hpos⟩ := hspends
    -- the account has an entry on its limit layer
    have hnet : net (fun x => x.id = a.id) (LimitKind.daily.usageLayer a) t.postings ≠ 0 := by
      rw [ht.net_usage a ha .daily]
      omega
    obtain ⟨q, hq, hid, hlayer⟩ := exists_of_net_ne_zero _ _ hnet
    obtain ⟨e, he, rfl⟩ := List.mem_map.1 hq
    obtain rfl : e.account = a :=
      hknown (hreturned.within e he) (ha.mem hchart) (of_decide_eq_true hid)
    have hspent : request.spent chart e.account ≠ 0 := fun hzero => by
      simp [TransactionRequest.spentBy, hzero] at hpos
    have hsets := ht.setsLimit _ _
      (hlimit rfl (TransactionRequest.spendsFrom_of_spent_ne_zero hspent))
    -- the rule and the store agree on the usage
    obtain ⟨p, hp⟩ := hreturned.exists_usageWithin hrules hknown hsets he hlayer
      ha.isBridge_eq
    have hprojected := hexact.projected hknown hinv.sides hreturned.within happly he hlayer hp
    have hafter := hinv.post hknown ht hexact.posts happly
    have hbalance := hafter.sides.balance (ha.mem hchart) (hexact.after store' happly e he)
    have hlayer : e.layer = LimitKind.daily.usageLayer e.account := hlayer
    have hunits := hbalance.unique hprojected
    rw [hlayer, hafter.recorded _ ha, hside, Side.oriented, neg_neg] at hunits
    rw [hunits]
    exact hp.2.2.2
  · rw [spentSince]
    split
    · rename_i hj
      have hle : ¬0 < request.spentBy chart a back := fun h => hspends ⟨hj, h⟩
      omega
    · omega

/-- **The daily limit bounds spending** of a payer that grows by credits. -/
theorem DayRun.spentSince_le (hrun : DayRun s chart store events) (hnonneg : 0 ≤ limit)
    (hlimits : ∀ t request back, .posted t request back ∈ events → t.journal = journal →
      request.SpendsFrom chart a → request.metadata.SetsLimit .daily limit) :
    spentSince chart journal a events ≤ limit.units := by
  have hnonneg : 0 ≤ limit.units := by simpa [Decimal.le_iff_units] using hnonneg
  induction hrun with
  | start => exact hnonneg
  | create hrun hcreate hexact happly ih =>
    refine (hrun.inv hknown hchart).spentSince_le hknown hchart hrules ha hside
      (.create hknown hchart hcreate) (.created hchart hcreate) hexact happly
      (ih fun t request back h => hlimits t request back (List.mem_cons_of_mem _ h)) ?_
    exact hlimits _ _ _ (List.mem_cons_self ..)
  | reverse hrun hposted hversion hsame hreverse hexact happly ih =>
    have hinv := hrun.inv hknown hchart
    obtain ⟨hreturned, ht⟩ := (hinv.turns _ _ _ hposted).reverse hversion hsame hreverse
    refine hinv.spentSince_le hknown hchart hrules ha hside ht hreturned hexact happly
      (ih fun t request back h => hlimits t request back (List.mem_cons_of_mem _ h)) ?_
    exact hlimits _ _ _ (List.mem_cons_self ..)
  | reset _ _ _ _ _ ih | nothingToReset _ _ _ ih =>
    have hbefore := ih fun t request back h =>
      hlimits t request back (List.mem_cons_of_mem _ h)
    rw [spentSince]
    split
    · exact hnonneg
    · exact hbefore

end Steps

/-! ## The main result -/

/-- **Recorded usage is what was spent since the last reset**, and the daily limit bounds it for
an account that grows by credits. In a run of a service with the standard rules, with one chart in
which the account has an asset bridge, the balance on the limit layer of the account is what was
spent from it since the last reset, with the sign turned if the account grows by debits. If it
grows by credits and every request that spends from it asks for the same limit, then that is not
above the limit. -/
theorem spending_within_limit {s : LedgerService} (hrules : s.rules = .standard s.currencies)
    {known : Set Account} (hknown : known.InjOn Account.id) {chart : Chart}
    (hchart : chart.Within known) {store : BalanceStore} {events : List DayEvent}
    (hrun : DayRun s chart store events) {a : Account} (ha : chart.HasPayer a)
    (journal : JournalId) :
    (store.ReadsExactly ⟨journal, a.id, LimitKind.daily.usageLayer a⟩ →
      Gives (store.balance journal a (LimitKind.daily.usageLayer a))
        (a.side.opposite.oriented (spentSince chart journal a events))) ∧
    (a.side = .credit → ∀ limit : Decimal, 0 ≤ limit →
      (∀ t request back, .posted t request back ∈ events → t.journal = journal →
        request.SpendsFrom chart a → request.metadata.SetsLimit .daily limit) →
      spentSince chart journal a events ≤ limit.units) := by
  refine ⟨fun hread => ?_, fun hside limit => hrun.spentSince_le hknown hchart hrules ha hside⟩
  have hinv := hrun.inv hknown hchart
  have hbalance := hinv.sides.balance (ha.mem hchart) hread
  rwa [hinv.recorded a ha, Side.oriented_neg, ← Side.oriented_opposite] at hbalance

open SmallLedger in
/-- Somebody spends forty dollars and, after a reset, thirty dollars. -/
theorem spending_within_limit_smallLedger : ∃ t u store, DayRun service chart store
      [.posted u (payment 30) false, .reset journal, .posted t (payment 40) false] ∧
    Gives (store.balance journal payer (.of .dailyLimit usdId)) (dollars 30).units ∧
    (dollars 30).units ≤ limit.units := by
  obtain ⟨t, ht, hrun⟩ := bind_eq_ok.1 (by decide +kernel : (do
    let t ← service.create (payment 40) chart (∅ : BalanceStore).lookup
    let used ← orOverflow ((∅ : BalanceStore).apply t)
    let r? ← service.dailyReset journal chart "R1" used.lookup
    match r? with
    | none => return false
    | some r => do
      let fresh ← orOverflow (used.apply r)
      let u ← service.create (payment 30) chart fresh.lookup
      let store ← orOverflow (fresh.apply u)
      return decide ((∅ : BalanceStore).TakesExactly t ∧
        (∀ a ∈ usageAccounts chart,
          used.ReadsExactly ⟨journal, a.id, LimitKind.daily.usageLayer a⟩) ∧
        used.PostsExactly r.journal r.entries ∧ fresh.TakesExactly u ∧ u.journal = journal ∧
        store.ReadsExactly ⟨journal, payer.id, LimitKind.daily.usageLayer payer⟩)) =
          (.ok true : Except Failure Bool))
  obtain ⟨used, hused, hrun⟩ := bind_eq_ok.1 hrun
  obtain ⟨r?, hreset, hrun⟩ := bind_eq_ok.1 hrun
  cases r? with
  | none => cases hrun
  | some r =>
    obtain ⟨fresh, hfresh, hrun⟩ := bind_eq_ok.1 hrun
    obtain ⟨u, hu, hrun⟩ := bind_eq_ok.1 hrun
    obtain ⟨store, hstore, hrun⟩ := bind_eq_ok.1 hrun
    obtain ⟨hexact, hreads, hposts, hexact', hjournal, hread⟩ :=
      of_decide_eq_true (Except.ok.inj hrun)
    have hrun := ((DayRun.start.create ht hexact (orOverflow_eq_ok.1 hused)).reset hreads hreset
      hposts (orOverflow_eq_ok.1 hfresh)).create hu hexact' (orOverflow_eq_ok.1 hstore)
    have hchart : chart.Within {a | a ∈ accounts} := Chart.within_ofList fun _ ha => ha
    have hpayer : chart.HasPayer payer := hasPayer (by simp [accounts]) rfl
    obtain ⟨hrecorded, hwithin⟩ :=
      spending_within_limit rfl injOn_id hchart hrun hpayer journal
    have hspent : spentSince chart journal payer [.posted u (payment 30) false, .reset journal,
        .posted t (payment 40) false] = (dollars 30).units := by
      rw [spentSince, spentSince, if_pos hjournal, if_pos rfl]
      decide +kernel
    rw [hspent] at hrecorded hwithin
    refine ⟨t, u, store, hrun, hrecorded hread, hwithin rfl limit (by decide) ?_⟩
    intro t' request' back' hmem _ _
    simp only [List.mem_cons, DayEvent.posted.injEq, reduceCtorEq, List.not_mem_nil, or_false,
      false_or] at hmem
    rcases hmem with ⟨-, rfl, -⟩ | ⟨-, rfl, -⟩ <;> decide +kernel

open SmallLedger in
/-- An account that grows by debits pays more than the limit of its requests. -/
theorem debit_payer_exceeds_limit :
    ¬∀ (s : LedgerService) (known : Set Account) (chart : Chart) (store : BalanceStore)
      (events : List DayEvent) (a : Account) (journal : JournalId) (limit : Decimal),
      s.rules = .standard s.currencies → known.InjOn Account.id → chart.Within known →
      DayRun s chart store events → chart.HasPayer a → 0 ≤ limit →
      (∀ t request back, .posted t request back ∈ events → t.journal = journal →
        request.SpendsFrom chart a → request.metadata.SetsLimit .daily limit) →
      spentSince chart journal a events ≤ limit.units := by
  intro h
  obtain ⟨t, ht, hrun⟩ := bind_eq_ok.1 (by decide +kernel : (do
    let t ← service.create
      (request false .p2p (List.replicate 5 (entry .amount merchant wallet 250))) chart
      (∅ : BalanceStore).lookup
    return decide ((∅ : BalanceStore).TakesExactly t ∧ t.journal = journal)) =
        (.ok true : Except Failure Bool))
  obtain ⟨hexact, hjournal⟩ := of_decide_eq_true (Except.ok.inj hrun)
  obtain ⟨store, happly⟩ := hexact.exists_apply
  have hle := h service {a | a ∈ accounts} chart store _ merchant journal limit rfl injOn_id
    (Chart.within_ofList fun _ ha => ha) (.create .start ht hexact happly)
    (hasPayer (by simp [accounts]) rfl) (by decide) ?_
  · rw [spentSince, spentSince, if_pos hjournal] at hle
    exact absurd hle (by decide +kernel)
  · intro t' request' back' hmem _ _
    obtain ⟨rfl, rfl, rfl⟩ : t' = t ∧ request' = _ ∧ back' = false := by simpa using hmem
    decide +kernel

end LayeredLedger
