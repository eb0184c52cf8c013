import LayeredLedger.Proofs.LimitSoundness
import LayeredLedger.Proofs.Usage

/-!
# What a daily reset does

A reset asks for the usage of every account that can have some, and posts on the other side of
what it finds, against the asset bridge of the currency. Without rounding no usage is left, and no
balance moves but those of the accounts with usage and of their bridges, on the daily limit layer
of the journal. So a second reset finds nothing to do.

* `BalanceStore.BuiltOn`: stores to which balances of some accounts were set and posted;
* `BalanceStore.ResetsExactly`: nothing is rounded on the way of a reset into a store;
* `LedgerService.dailyReset_eq_none_iff`: there is nothing to reset;
* `Chart.ResetsAt`, `LedgerService.exists_resetsAt`: where a reset posts;
* **`reset_zeroes_usage`**: what a reset leaves.
-/

namespace LayeredLedger

/-! ## Stores -/

namespace BalanceStore

/-- The store was empty, and balances of some accounts were set and posted since then. -/
inductive BuiltOn (known : Set Account) : BalanceStore → Prop where
  | empty : BuiltOn known ∅
  | set {store : BalanceStore} (h : BuiltOn known store) {a : Account} (ha : a ∈ known)
      (journal : JournalId) (layer : Layer) (amount : Decimal) :
      BuiltOn known (store.set journal a layer amount)
  | apply {store store' : BalanceStore} (h : BuiltOn known store) {t : Transaction}
      (ht : t.Within known) (happly : store.apply t = .ok store') : BuiltOn known store'

theorem BuiltOn.keepsSides {known : Set Account} (hknown : known.InjOn Account.id)
    {store : BalanceStore} (h : store.BuiltOn known) : store.KeepsSides known := by
  induction h with
  | empty => exact .empty
  | set _ ha journal layer amount ih => exact ih.set hknown ha journal layer amount
  | apply _ ht happly ih => exact ih.apply hknown ht happly

/-- Nothing is rounded when a reset is posted, and when the usage of the accounts of a chart is
read before and after. -/
structure ResetsExactly (store : BalanceStore) (chart : Chart) (journal : JournalId)
    (t : Transaction) : Prop where
  posts : store.PostsExactly t.journal t.entries
  before : ∀ a ∈ usageAccounts chart,
    store.ReadsExactly ⟨journal, a.id, LimitKind.daily.usageLayer a⟩
  after : ∀ store', store.apply t = .ok store' → ∀ a ∈ usageAccounts chart,
    store'.ReadsExactly ⟨journal, a.id, LimitKind.daily.usageLayer a⟩

instance (store : BalanceStore) (chart : Chart) (journal : JournalId) (t : Transaction) :
    Decidable (store.ResetsExactly chart journal t) :=
  decidable_of_iff
    (store.PostsExactly t.journal t.entries ∧
      (∀ a ∈ usageAccounts chart,
        store.ReadsExactly ⟨journal, a.id, LimitKind.daily.usageLayer a⟩) ∧
      ∀ store', store.apply t = .ok store' → ∀ a ∈ usageAccounts chart,
        store'.ReadsExactly ⟨journal, a.id, LimitKind.daily.usageLayer a⟩)
    ⟨fun ⟨h₁, h₂, h₃⟩ => ⟨h₁, h₂, h₃⟩, fun h => ⟨h.posts, h.before, h.after⟩⟩

end BalanceStore

/-- The key is where the usage of an account is reset: that of the account itself, or that of the
asset bridge of its currency. -/
def Chart.ResetsAt (chart : Chart) (journal : JournalId) (a : Account) (key : BalanceKey) : Prop :=
  key.journal = journal ∧ key.layer = LimitKind.daily.usageLayer a ∧
    (key.account = a.id ∨ ∃ b, chart.bridge? a.currency .asset = some b ∧ key.account = b.id)

/-! ## Nothing to reset -/

namespace LedgerService

variable {s : LedgerService} {chart : Chart} {store : BalanceStore} {journal : JournalId}
  {reference : String} {a : Account}

theorem usageReset_eq_nil {layer : Layer} {usage : Decimal} :
    usageReset chart a layer usage = .ok [] ↔ usage.units = 0 := by
  rw [Decimal.units_eq_zero_iff]
  unfold usageReset
  split
  · simp_all
  · rename_i hzero
    split <;> simp [hzero]

theorem resetSpecs_eq_nil : s.resetSpecs journal chart store.lookup a = .ok [] ↔
    s.Registers a ∧ Gives (store.balance journal a (LimitKind.daily.usageLayer a)) 0 := by
  simp only [resetSpecs_eq_ok, usageReset_eq_nil, gives_iff]

/-- There is nothing to reset if the currencies are registered and no usage is recorded. -/
theorem dailyReset_eq_none_iff : s.dailyReset journal chart reference store.lookup = .ok none ↔
    ∀ a ∈ usageAccounts chart,
      s.Registers a ∧ Gives (store.balance journal a (LimitKind.daily.usageLayer a)) 0 := by
  have hnil : ∀ a, s.resetSpecs journal chart store.lookup a = .ok [] ↔ s.Registers a ∧
      Gives (store.balance journal a (LimitKind.daily.usageLayer a)) 0 := fun _ => resetSpecs_eq_nil
  simp only [← hnil]
  constructor
  · intro h a ha
    obtain ⟨specs, hspecs, hnil⟩ := dailyReset_eq_none h
    obtain ⟨legs, hlegs, hreset⟩ := exists_of_mapM_eq_ok hspecs ha
    rwa [List.flatten_eq_nil_iff.1 hnil legs hlegs] at hreset
  · intro h
    have hspecs := mapM_eq_ok_map h
    refine bind_eq_ok.2 ⟨_, hspecs, if_pos ?_⟩
    simp

/-! ## Where a reset posts -/

/-- Every entry of a reset is where the usage of some account is reset that has usage. -/
theorem exists_resetsAt {t : Transaction}
    (h : s.dailyReset journal chart reference store.lookup = .ok (some t)) {e : Entry}
    (he : e ∈ t.entries) : ∃ a ∈ usageAccounts chart,
      ¬Gives (store.balance journal a (LimitKind.daily.usageLayer a)) 0 ∧
        chart.ResetsAt journal a (BalanceStore.keyOf t.journal e) := by
  obtain ⟨specs, hspecs, hpost, -⟩ := dailyReset_eq_some h
  obtain ⟨-, rfl⟩ := Transaction.post_eq_ok.1 hpost
  obtain ⟨x, hx, rfl⟩ := List.mem_map.1 he
  obtain ⟨legs, hlegs, hx⟩ := List.mem_flatten.1 hx
  obtain ⟨a, ha, hreset⟩ := exists_of_mem_mapM hspecs hlegs
  obtain ⟨-, usage, husage, hlegs⟩ := resetSpecs_eq_ok.1 hreset
  obtain ⟨hlayer, haccount⟩ := of_mem_usageReset hlegs hx
  refine ⟨a, ha, fun hgives => ?_, rfl, hlayer, ?_⟩
  · -- without usage there are no legs
    obtain rfl := Except.ok.inj
      (hlegs.symm.trans (usageReset_eq_nil.2 (hgives.units_eq husage)))
    cases hx
  · exact haccount.imp (congrArg Account.id) fun hbridge => ⟨_, hbridge, rfl⟩

end LedgerService

/-! ## The main result -/

/-- **A daily reset zeroes usage and nothing else.** In a store to which balances of accounts with
distinct identities were set and posted, there is nothing to reset if and only if the currencies
of all accounts that can have usage are registered, and none has any. A transaction that a reset
returns can be posted. After that no usage is left, whatever its sign and on whatever side the
account grows; only the accounts that had usage, and the asset bridges of their currencies, have
another balance, on the daily limit layer of the journal; and a second reset finds nothing. -/
theorem reset_zeroes_usage {s : LedgerService} {known : Set Account}
    (hknown : known.InjOn Account.id) {chart : Chart} (hchart : chart.Within known)
    {store : BalanceStore} (hstore : store.BuiltOn known) (journal : JournalId) :
    (∀ reference, s.dailyReset journal chart reference store.lookup = .ok none ↔
      ∀ a ∈ usageAccounts chart,
        s.Registers a ∧ Gives (store.balance journal a (LimitKind.daily.usageLayer a)) 0) ∧
    ∀ reference r, s.dailyReset journal chart reference store.lookup = .ok (some r) →
      store.ResetsExactly chart journal r →
      ∃ store', store.apply r = .ok store' ∧
        (∀ a ∈ usageAccounts chart,
          Gives (store'.balance journal a (LimitKind.daily.usageLayer a)) 0) ∧
        (∀ key, store'.get? key ≠ store.get? key → ∃ a ∈ usageAccounts chart,
          ¬Gives (store.balance journal a (LimitKind.daily.usageLayer a)) 0 ∧
            chart.ResetsAt journal a key) ∧
        ∀ reference', s.dailyReset journal chart reference' store'.lookup = .ok none := by
  refine ⟨fun _ => LedgerService.dailyReset_eq_none_iff, fun reference r h hexact => ?_⟩
  obtain ⟨store', happly⟩ := hexact.posts.exists_foldlM
  have hsides := hstore.keepsSides hknown
  have hwithin := (LedgerService.dailyReset_within hchart h).2
  have hzero : ∀ a ∈ usageAccounts chart,
      Gives (store'.balance journal a (LimitKind.daily.usageLayer a)) 0 := fun a ha => by
    have hnet := LedgerService.netAt_dailyReset hknown hchart ha hsides (hexact.before a ha) h
      hexact.posts happly journal
    have hbalance := (hsides.apply hknown hwithin happly).balance
      (mem_known_of_mem_usageAccounts hchart ha) (hexact.after store' happly a ha)
    rwa [hnet, if_pos rfl, Side.oriented_zero] at hbalance
  refine ⟨store', happly, hzero, fun key hkey => ?_, fun reference' => ?_⟩
  · by_contra hnone
    refine hkey (BalanceStore.get?_apply happly fun e he => ?_)
    rintro rfl
    exact hnone (LedgerService.exists_resetsAt h he)
  · obtain ⟨specs, hspecs, -⟩ := LedgerService.dailyReset_eq_some h
    refine LedgerService.dailyReset_eq_none_iff.2 fun a ha => ⟨?_, hzero a ha⟩
    obtain ⟨legs, -, hlegs⟩ := exists_of_mapM_eq_ok hspecs ha
    exact (LedgerService.resetSpecs_eq_ok.1 hlegs).1

open SmallLedger in
/-- The usage of a payer that grows by credits, and that of a merchant that grows by debits. -/
theorem reset_zeroes_usage_smallLedger : ∃ r store',
    service.dailyReset journal chart "R1" usedByTwo.lookup = .ok (some r) ∧
    usedByTwo.apply r = .ok store' ∧
    Gives (store'.balance journal payer (.of .dailyLimit usdId)) 0 ∧
    Gives (store'.balance journal merchant (.of .dailyLimit usdId)) 0 ∧
    service.dailyReset journal chart "R2" store'.lookup = .ok none := by
  obtain ⟨r?, hreset, h⟩ := bind_eq_ok.1 (by decide +kernel : (do
    let r? ← service.dailyReset journal chart "R1" usedByTwo.lookup
    match r? with
    | none => return false
    | some r => return decide (usedByTwo.ResetsExactly chart journal r)) =
      (.ok true : Except Failure Bool))
  cases r? with
  | none => cases h
  | some r =>
    have hstore : usedByTwo.BuiltOn {a | a ∈ accounts} :=
      (BalanceStore.BuiltOn.empty.set (by simp [accounts]) _ _ _).set (by simp [accounts]) _ _ _
    obtain ⟨-, hreset'⟩ := reset_zeroes_usage (s := service) injOn_id
      (Chart.within_ofList fun _ ha => ha : chart.Within _) hstore journal
    obtain ⟨store', happly, hzero, -, hagain⟩ :=
      hreset' "R1" r hreset (of_decide_eq_true (Except.ok.inj h))
    have husage : payer ∈ usageAccounts chart ∧ merchant ∈ usageAccounts chart := by
      decide +kernel
    exact ⟨r, store', hreset, happly, hzero payer husage.1, hzero merchant husage.2,
      hagain "R2"⟩

end LayeredLedger
