import LayeredLedger.Proofs.DoubleEntry
import LayeredLedger.Proofs.LimitSoundness

/-!
# Trial balance

A ledger starts with an empty store. The service is called in any order and with any answers,
some calls fail, and what the others return is posted sooner or later, each transaction once. At
every moment a balance is the sum of the impacts of what was posted, and on every layer the
balances of the accounts that grow by debits add up to those of the accounts that grow by credits.

* `ServiceCall`, `LedgerService.newTransactions`: calls, and the transactions they return;
* `Transaction.IsSound`, `newTransactions_isSound`: what is known of returned transactions;
* `Ledger`, `Ledger.Run`: the moments that a ledger goes through;
* `Ledger.Inv`, `Ledger.Run.inv`: nets of the store and of what was posted agree;
* `sum_netAt_eq_zero`: over all accounts, what was posted nets to zero;
* **`trial_balance`**: balances are sums of impacts, and the two sides agree.
-/

namespace LayeredLedger

/-! ## Calls -/

/-- A call of the service. -/
inductive ServiceCall where
  | create (request : TransactionRequest) (chart : Chart) (lookup : BalanceLookup)
  | complete (t : Transaction) (reference : String) (lookup : BalanceLookup)
  | reverse (t : Transaction) (reference : String) (lookup : BalanceLookup)
  | reverseGroup (reference : String) (group : List Transaction) (references : Nat → String)
      (lookup : BalanceLookup)
  | dailyReset (journal : JournalId) (chart : Chart) (reference : String) (lookup : BalanceLookup)

namespace ServiceCall

/-- The transactions that a call is about. -/
def originals : ServiceCall → List Transaction
  | create _ _ _ => []
  | complete t _ _ => [t]
  | reverse t _ _ => [t]
  | reverseGroup _ group _ _ => group
  | dailyReset _ _ _ _ => []

/-- The accounts of the chart of a call are among some accounts. -/
def Within (known : Set Account) : ServiceCall → Prop
  | create _ chart _ => chart.Within known
  | dailyReset _ chart _ _ => chart.Within known
  | _ => True

end ServiceCall

/-- The new transactions that a call returns, none if it fails. -/
def LedgerService.newTransactions (s : LedgerService) : ServiceCall → List Transaction
  | .create request chart lookup =>
    match s.create request chart lookup with
    | .ok t => [t]
    | .error _ => []
  | .complete t reference lookup =>
    match (s.complete t reference lookup).1 with
    | .ok (.completed c) => [c]
    | _ => []
  | .reverse t reference lookup =>
    match (s.reverse t reference lookup).1 with
    | .ok (.reversed r) => [r]
    | _ => []
  | .reverseGroup reference group references lookup =>
    match (s.reverseGroup reference group references lookup).1 with
    | .ok (.reversed rs) => rs
    | _ => []
  | .dailyReset journal chart reference lookup =>
    match s.dailyReset journal chart reference lookup with
    | .ok (some t) => [t]
    | _ => []

/-! ## What is returned -/

/-- The transaction is double entry on known accounts. -/
structure Transaction.IsSound (known : Set Account) (t : Transaction) : Prop where
  within : t.Within known
  sidesMatch : SidesMatch t.postings

namespace Transaction.IsSound

variable {known : Set Account} {t : Transaction} (h : t.IsSound known)

include h

theorem version {version : Transaction} (hv : version.IsVersionOf t) : version.IsSound known := by
  refine ⟨fun e he => h.within e (hv.entries ▸ he), ?_⟩
  rw [Transaction.postings, hv.entries]
  exact h.sidesMatch

theorem reversal (reference : String) : (t.reversal reference).IsSound known :=
  ⟨h.within.reversal reference, h.sidesMatch.reversal reference⟩

end Transaction.IsSound

section Returned

variable {s : LedgerService} {known : Set Account}

theorem isSound_of_create {request : TransactionRequest} {chart : Chart} {lookup : BalanceLookup}
    {t : Transaction} (hchart : chart.Within known) (h : s.create request chart lookup = .ok t) :
    t.IsSound known := by
  obtain ⟨hbuilt, -, -⟩ := LedgerService.create_eq_ok.1 h
  obtain ⟨strategy, plans, hd⟩ := exists_isDraft hbuilt
  exact ⟨hd.within hchart, hd.sidesMatch⟩

theorem isSound_of_complete {t c after : Transaction} {reference : String}
    {lookup : BalanceLookup} (ht : t.IsSound known)
    (h : s.complete t reference lookup = (.ok (.completed c), after)) : c.IsSound known := by
  obtain ⟨-, hdraft, -⟩ := LedgerService.complete_eq_completed.1 h
  obtain ⟨hbuilt, -⟩ := LedgerService.approve_completionDraft.1 hdraft
  exact ⟨LedgerService.buildCompletion_within ht.within hbuilt,
    LedgerService.buildCompletion_sidesMatch ht.sidesMatch hbuilt⟩

theorem isSound_of_reverse {t r after : Transaction} {reference : String}
    {lookup : BalanceLookup} (ht : t.IsSound known)
    (h : s.reverse t reference lookup = (.ok (.reversed r), after)) : r.IsSound known := by
  obtain ⟨-, hdraft, -⟩ := LedgerService.reverse_eq_reversed.1 h
  rw [LedgerService.eq_of_approve_reversal hdraft]
  exact ht.reversal reference

theorem isSound_of_reverseGroup {group rs after : List Transaction} {reference : String}
    {references : Nat → String} {lookup : BalanceLookup} (hgroup : ∀ t ∈ group, t.IsSound known)
    (h : s.reverseGroup reference group references lookup = (.ok (.reversed rs), after)) :
    ∀ r ∈ rs, r.IsSound known := by
  rw [LedgerService.reverseGroup_eq_reversed h]
  intro r hr
  obtain ⟨⟨t, i⟩, ht, rfl⟩ := List.mem_map.1 hr
  have hmem : t ∈ newestFirst Transaction.postDate group := List.fst_mem_of_mem_zipIdx ht
  exact (hgroup t (List.mem_mergeSort.1 hmem)).reversal _

theorem isSound_of_dailyReset {journal : JournalId} {chart : Chart} {reference : String}
    {lookup : BalanceLookup} {t : Transaction} (hchart : chart.Within known)
    (h : s.dailyReset journal chart reference lookup = .ok (some t)) : t.IsSound known := by
  obtain ⟨specs, hspecs, hpost, -⟩ := LedgerService.dailyReset_eq_some h
  exact ⟨(LedgerService.dailyReset_within hchart h).2,
    LedgerService.reset_sidesMatch hspecs hpost⟩

/-- **Every call returns sound transactions**, if those it is about are sound. -/
theorem newTransactions_isSound {call : ServiceCall} (hcall : call.Within known)
    (horiginals : ∀ t ∈ call.originals, t.IsSound known) :
    ∀ t ∈ s.newTransactions call, t.IsSound known := by
  intro t ht
  cases call with
  | create request chart lookup =>
    simp only [LedgerService.newTransactions] at ht
    split at ht
    · rename_i t' hcreate
      obtain rfl := List.mem_singleton.1 ht
      exact isSound_of_create hcall hcreate
    · cases ht
  | complete original reference lookup =>
    simp only [LedgerService.newTransactions] at ht
    split at ht
    · rename_i c hc
      obtain rfl := List.mem_singleton.1 ht
      exact isSound_of_complete (horiginals original (by simp [ServiceCall.originals]))
        (Prod.ext hc rfl)
    · cases ht
  | reverse original reference lookup =>
    simp only [LedgerService.newTransactions] at ht
    split at ht
    · rename_i r hr
      obtain rfl := List.mem_singleton.1 ht
      exact isSound_of_reverse (horiginals original (by simp [ServiceCall.originals]))
        (Prod.ext hr rfl)
    · cases ht
  | reverseGroup reference group references lookup =>
    simp only [LedgerService.newTransactions] at ht
    split at ht
    · rename_i rs hrs
      exact isSound_of_reverseGroup horiginals (Prod.ext hrs rfl) t ht
    · cases ht
  | dailyReset journal chart reference lookup =>
    simp only [LedgerService.newTransactions] at ht
    split at ht
    · rename_i t' hreset
      obtain rfl := List.mem_singleton.1 ht
      exact isSound_of_dailyReset hcall hreset
    · cases ht

end Returned

/-! ## Runs -/

/-- A moment of a ledger. -/
structure Ledger where
  store : BalanceStore
  /-- The transactions that were posted to the store. -/
  posted : List Transaction
  /-- The transactions that the service returned and that are not posted yet. -/
  waiting : List Transaction

namespace Ledger

/-- The moments that a ledger goes through. Calls are about transactions that were returned
before, as they are now or were at any time, and whatever waits can be posted next. -/
inductive Run (s : LedgerService) (known : Set Account) : Ledger → Prop where
  | start : Run s known ⟨∅, [], []⟩
  | call {l : Ledger} {c : ServiceCall} (h : Run s known l) (hcall : c.Within known)
      (horiginals : ∀ t ∈ c.originals, ∃ t' ∈ l.posted ++ l.waiting, t.IsVersionOf t') :
      Run s known { l with waiting := l.waiting ++ s.newTransactions c }
  | post {l : Ledger} {before after : List Transaction} {t : Transaction} {store' : BalanceStore}
      (h : Run s known l) (hwaiting : l.waiting = before ++ t :: after)
      (hexact : l.store.PostsExactly t.journal t.entries) (happly : l.store.apply t = .ok store') :
      Run s known ⟨store', l.posted ++ [t], before ++ after⟩

/-- A call while nothing waits, whose one transaction is posted at once. -/
theorem Run.callAndPost {s : LedgerService} {known : Set Account} {store store' : BalanceStore}
    {posted : List Transaction} {c : ServiceCall} {t : Transaction}
    (h : Run s known ⟨store, posted, []⟩) (hcall : c.Within known)
    (horiginals : ∀ t ∈ c.originals, ∃ t' ∈ posted, t.IsVersionOf t')
    (hreturns : s.newTransactions c = [t]) (hexact : store.PostsExactly t.journal t.entries)
    (happly : store.apply t = .ok store') : Run s known ⟨store', posted ++ [t], []⟩ := by
  have hcalled := h.call hcall (by simpa using horiginals)
  have hwaiting : [] ++ s.newTransactions c = [] ++ t :: [] := by rw [hreturns]
  exact hcalled.post hwaiting hexact happly

/-- What a run keeps true. -/
structure Inv (known : Set Account) (l : Ledger) : Prop where
  sound : ∀ t ∈ l.posted ++ l.waiting, t.IsSound known
  sides : l.store.KeepsSides known
  nets : ∀ key, l.store.netAt key = (l.posted.map fun t => t.netAt key).sum

variable {s : LedgerService} {known : Set Account} {l : Ledger}

theorem Inv.call (h : l.Inv known) {c : ServiceCall} (hcall : c.Within known)
    (horiginals : ∀ t ∈ c.originals, ∃ t' ∈ l.posted ++ l.waiting, t.IsVersionOf t') :
    { l with waiting := l.waiting ++ s.newTransactions c }.Inv known where
  sound t ht := by
    rw [← List.append_assoc] at ht
    rcases List.mem_append.1 ht with ht | ht
    · exact h.sound t ht
    · refine newTransactions_isSound hcall (fun t ht => ?_) t ht
      obtain ⟨t', ht', hv⟩ := horiginals t ht
      exact (h.sound t' ht').version hv
  sides := h.sides
  nets := h.nets

theorem Inv.post (h : l.Inv known) (hknown : known.InjOn Account.id)
    {before after : List Transaction} {t : Transaction} {store' : BalanceStore}
    (hwaiting : l.waiting = before ++ t :: after)
    (hexact : l.store.PostsExactly t.journal t.entries) (happly : l.store.apply t = .ok store') :
    (⟨store', l.posted ++ [t], before ++ after⟩ : Ledger).Inv known where
  sound x hx := h.sound x (by
    simp only [List.mem_append, List.mem_singleton] at hx
    simp only [hwaiting, List.mem_append, List.mem_cons]
    tauto)
  sides := h.sides.apply hknown (h.sound t (by simp [hwaiting])).within happly
  nets key := by
    rw [BalanceStore.netAt_apply happly hexact, h.nets, List.map_append, List.sum_append]
    simp

/-- **Every run keeps the invariant.** -/
theorem Run.inv (hknown : known.InjOn Account.id) (h : l.Run s known) : l.Inv known := by
  induction h with
  | start => exact ⟨nofun, .empty, fun _ => rfl⟩
  | call _ hcall horiginals ih => exact ih.call hcall horiginals
  | post _ hwaiting hexact happly ih => exact ih.post hknown hwaiting hexact happly

end Ledger

/-! ## Sums over all accounts -/

/-- The net of a layer is what its debits have over its credits. -/
theorem net_eq_sub (layer : Layer) (ps : List Posting) : net (fun _ => true) layer ps =
    ((amountsOn .debit layer ps).map Decimal.units).sum -
      ((amountsOn .credit layer ps).map Decimal.units).sum := by
  induction ps with
  | nil => rfl
  | cons p ps ih =>
    rw [net_cons, ih, amountsOn_cons, amountsOn_cons, Posting.signedUnits_eq]
    by_cases hlayer : p.layer = layer
    · cases p.side <;> simp [hlayer, Side.oriented] <;> omega
    · simp [hlayer]

variable {known : Finset Account} (hknown : (known : Set Account).InjOn Account.id)

include hknown

/-- Every posting belongs to one known account. -/
theorem sum_net {layer : Layer} {ps : List Posting} (h : ∀ p ∈ ps, p.account ∈ known) :
    ∑ a ∈ known, net (fun x => x.id = a.id) layer ps = net (fun _ => true) layer ps := by
  induction ps with
  | nil => simp
  | cons p ps ih =>
    -- of the sum for the first posting, the term of its account is left
    simp only [net_cons, Finset.sum_add_distrib, ih fun q hq => h q (by simp [hq])]
    congr 1
    have hp := h p (by simp)
    rw [Finset.sum_eq_single_of_mem p.account hp]
    · simp
    · intro a ha hne
      exact if_neg fun e => hne (hknown ha hp (of_decide_eq_true e.1).symm)

/-- Over all accounts, double entry nets to zero. -/
theorem sum_netAt_eq_zero {t : Transaction} (ht : t.IsSound known) (journal : JournalId)
    (layer : Layer) : ∑ a ∈ known, t.netAt ⟨journal, a.id, layer⟩ = 0 := by
  unfold Transaction.netAt
  by_cases hj : t.journal = journal
  · have hpostings : ∀ p ∈ t.postings, p.account ∈ known := by
      intro p hp
      obtain ⟨e, he, rfl⟩ := List.mem_map.1 hp
      exact ht.within e he
    simp only [hj, if_true]
    rw [sum_net hknown hpostings, net_eq_sub, ht.sidesMatch.sum_units, sub_self]
  · simp [hj]

namespace Ledger

variable {l : Ledger} (h : l.Inv known) (journal : JournalId) (layer : Layer)

include h

/-- The net of an account in the store is the sum of the impacts of what was posted, as the
account counts it. -/
theorem Inv.oriented_netAt {a : Account} (ha : a ∈ known) :
    a.side.oriented (l.store.netAt ⟨journal, a.id, layer⟩) =
      ((l.posted.filter fun t => t.journal = journal).map fun t =>
        t.impactUnits a.id layer).sum := by
  rw [h.nets]
  have hsound : ∀ t ∈ l.posted, t.IsSound known := fun t ht => h.sound t (by simp [ht])
  generalize l.posted = posted at hsound
  induction posted with
  | nil => simp
  | cons t posted ih =>
    have ih := ih fun x hx => hsound x (by simp [hx])
    have ht := (hsound t (by simp)).within
    rw [List.map_cons, List.sum_cons, Side.oriented_add, ih]
    by_cases hj : t.journal = journal
    · rw [List.filter_cons_of_pos (by simpa using hj), List.map_cons, List.sum_cons,
        Transaction.netAt, if_pos hj,
        Transaction.impactUnits_eq fun e he hid => hknown (ht e he) ha hid]
    · rw [List.filter_cons_of_neg (by simpa using hj), Transaction.netAt, if_neg hj,
        Side.oriented_zero, zero_add]

/-- Over all accounts, the store nets to zero. -/
theorem Inv.sum_netAt_eq_zero : ∑ a ∈ known, l.store.netAt ⟨journal, a.id, layer⟩ = 0 := by
  simp only [h.nets]
  have hsound : ∀ t ∈ l.posted, t.IsSound known := fun t ht => h.sound t (by simp [ht])
  generalize l.posted = posted at hsound
  induction posted with
  | nil => simp
  | cons t posted ih =>
    simp only [List.map_cons, List.sum_cons, Finset.sum_add_distrib]
    rw [LayeredLedger.sum_netAt_eq_zero hknown (hsound t (by simp)),
      ih fun x hx => hsound x (by simp [hx]), add_zero]

end Ledger

omit hknown in
/-- What nets to zero over all accounts is the same number on both sides. -/
theorem sum_debit_eq_sum_credit {balance net : Account → Int}
    (hbalance : ∀ a ∈ known, balance a = a.side.oriented (net a))
    (hzero : ∑ a ∈ known, net a = 0) :
    ∑ a ∈ known with a.side = .debit, balance a = ∑ a ∈ known with a.side = .credit, balance a := by
  have hcredit_iff : ∀ a : Account, a.side = .credit ↔ ¬a.side = .debit := fun a => by
    cases a.side <;> simp
  have hsplit : ∑ a ∈ known with a.side = .debit, net a +
      ∑ a ∈ known with a.side = .credit, net a = 0 := by
    simp only [hcredit_iff]
    rw [Finset.sum_filter_add_sum_filter_not, hzero]
  have hdebit : ∑ a ∈ known with a.side = .debit, balance a =
      ∑ a ∈ known with a.side = .debit, net a := by
    refine Finset.sum_congr rfl fun a ha => ?_
    obtain ⟨ha, hside⟩ := Finset.mem_filter.1 ha
    rw [hbalance a ha, hside, Side.oriented]
  have hcredit : ∑ a ∈ known with a.side = .credit, balance a =
      -∑ a ∈ known with a.side = .credit, net a := by
    rw [← Finset.sum_neg_distrib]
    refine Finset.sum_congr rfl fun a ha => ?_
    obtain ⟨ha, hside⟩ := Finset.mem_filter.1 ha
    rw [hbalance a ha, hside, Side.oriented]
  rw [hdebit, hcredit]
  omega

/-! ## The main result -/

/-- **Trial balance.** At every moment of a run, on every layer of every journal that can be read
without rounding, the balance of every account is the exact sum of the impacts of what was posted
to it, and the balances of the accounts that grow by debits have the same sum as the balances of
the accounts that grow by credits. -/
theorem trial_balance {s : LedgerService} {l : Ledger} (hrun : l.Run s known)
    (journal : JournalId) (layer : Layer)
    (hread : ∀ a ∈ known, l.store.ReadsExactly ⟨journal, a.id, layer⟩) :
    ∃ balance : Account → Decimal,
      (∀ a ∈ known, l.store.balance journal a layer = .ok (balance a) ∧
        (balance a).units = ((l.posted.filter fun t => t.journal = journal).map fun t =>
          t.impactUnits a.id layer).sum) ∧
      ∑ a ∈ known with a.side = .debit, (balance a).units =
        ∑ a ∈ known with a.side = .credit, (balance a).units := by
  have hinv := hrun.inv hknown
  have hbalance : ∀ a ∈ known, ∃ d, l.store.balance journal a layer = .ok d ∧
      d.units = a.side.oriented (l.store.netAt ⟨journal, a.id, layer⟩) := fun a ha =>
    gives_iff.1 (hinv.sides.balance ha (hread a ha))
  choose! balance hbalance using hbalance
  refine ⟨balance, fun a ha => ⟨(hbalance a ha).1, ?_⟩, ?_⟩
  · rw [(hbalance a ha).2, hinv.oriented_netAt hknown journal layer ha]
  · exact sum_debit_eq_sum_credit (fun a ha => (hbalance a ha).2)
      (hinv.sum_netAt_eq_zero hknown journal layer)

omit hknown in
open SmallLedger in
/-- A transfer that waits for completion is posted, and then its completion. -/
theorem trial_balance_smallLedger :
    ∃ (l : Ledger) (balance : Account → Decimal), l.Run service accounts.toFinset ∧
      l.posted.length = 2 ∧
      (∀ a ∈ accounts.toFinset,
        l.store.balance journal a (.of .base usdId) = .ok (balance a)) ∧
      ∑ a ∈ accounts.toFinset with a.side = .debit, (balance a).units =
        ∑ a ∈ accounts.toFinset with a.side = .credit, (balance a).units := by
  have hinjOn : Set.InjOn Account.id (accounts.toFinset : Set Account) := by
    simpa using injOn_id
  have hchart : chart.Within (accounts.toFinset : Set Account) :=
    Chart.within_ofList fun a ha => by simpa using ha
  obtain ⟨t, ht, hrun⟩ := bind_eq_ok.1 (by decide +kernel : (do
    let t ← service.create (request true .inbound [entry .amount payer wallet 40]) chart silent
    let store ← orOverflow ((∅ : BalanceStore).apply t)
    let c ← service.approve silent (service.completionDraft t "T2")
    let store' ← orOverflow (store.apply c)
    return decide (t.isCompleted = false ∧
      BalanceStore.PostsExactly t.journal ∅ t.entries ∧ store.PostsExactly c.journal c.entries ∧
      ∀ a ∈ accounts, store'.ReadsExactly ⟨journal, a.id, .of .base usdId⟩)) =
        (.ok true : Except Failure Bool))
  obtain ⟨store, hstore, hrun⟩ := bind_eq_ok.1 hrun
  obtain ⟨c, hc, hrun⟩ := bind_eq_ok.1 hrun
  obtain ⟨store', hstore', hrun⟩ := bind_eq_ok.1 hrun
  obtain ⟨hopen, hfirst, hsecond, hread⟩ := of_decide_eq_true (Except.ok.inj hrun)
  rw [orOverflow_eq_ok] at hstore hstore'
  have hcreated : service.newTransactions (.create (request true .inbound
      [entry .amount payer wallet 40]) chart silent) = [t] := by
    simp only [LedgerService.newTransactions, ht]
  have hcompleted : service.newTransactions (.complete t "T2" silent) = [c] := by
    simp only [LedgerService.newTransactions,
      LedgerService.complete_eq_completed.2 ⟨hopen, hc, rfl⟩]
  have hposted := Ledger.Run.start.callAndPost (by exact hchart)
    (by simp [ServiceCall.originals]) hcreated hfirst hstore
  have hsettled := hposted.callAndPost (by trivial)
    (by simpa [ServiceCall.originals] using .refl t) hcompleted hsecond hstore'
  obtain ⟨balance, hbalance, hsum⟩ := trial_balance hinjOn hsettled journal (.of .base usdId)
    fun a ha => hread a (by simpa using ha)
  exact ⟨_, balance, hsettled, rfl, fun a ha => (hbalance a ha).1, hsum⟩

end LayeredLedger
