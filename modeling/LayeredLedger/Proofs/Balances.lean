import LayeredLedger.Proofs.Outcome
import LayeredLedger.Proofs.Postings
import LayeredLedger.Rule.Limit

/-!
# Exact balances

A store keeps debits and credits apart, and reading a balance takes one from the other. As long
as no sum is rounded, the store knows the exact net of all that was posted to it, and a reading is
that net, counted on the side on which the account grows.

* `Gives`: a result of an exact value; `Side.oriented`: a net as seen from a side;
* `BalanceStore.netAt`, `Transaction.netAt`: what is kept at a key, and what is posted there;
* `BalanceStore.PostsExactly`, `BalanceStore.ReadsExactly`: nothing is rounded;
* `BalanceStore.KeepsSides`: balances grow on the sides of their accounts;
* `Transaction.impactUnits`: the exact impact of a transaction;
* **`BalanceStore.netAt_apply`**: posting adds the net of the transaction at every key;
* `BalanceStore.KeepsSides.balance`: readings are nets.
-/

namespace LayeredLedger

/-! ## Exact results -/

/-- The result is a decimal of an exact value, in units. -/
def Gives (x : Except Overflow Decimal) (n : Int) : Prop := x.map Decimal.units = .ok n

instance (x : Except Overflow Decimal) (n : Int) : Decidable (Gives x n) :=
  inferInstanceAs (Decidable (_ = _))

theorem gives_iff {x : Except Overflow Decimal} {n : Int} :
    Gives x n ↔ ∃ d, x = .ok d ∧ d.units = n := map_eq_ok

theorem Gives.units_eq {x : Except Overflow Decimal} {n : Int} {d : Decimal} (h : Gives x n)
    (hx : x = .ok d) : d.units = n := by
  obtain ⟨d', hd', hn⟩ := gives_iff.1 h
  rwa [Except.ok.inj (hx.symm.trans hd')]

theorem Gives.unique {x : Except Overflow Decimal} {m n : Int} (hm : Gives x m) (hn : Gives x n) :
    m = n :=
  Except.ok.inj (hm.symm.trans hn)

/-- The sum is not rounded. -/
def Decimal.AddsExactly (a b : Decimal) : Prop := Gives (a.add b) (a.units + b.units)

instance (a b : Decimal) : Decidable (a.AddsExactly b) := inferInstanceAs (Decidable (Gives _ _))

/-! ## Sides -/

namespace Side

/-- Debits minus credits, as a side counts them. -/
def oriented : Side → Int → Int
  | debit, n => n
  | credit, n => -n

@[simp] theorem oriented_zero (s : Side) : s.oriented 0 = 0 := by cases s <;> rfl

@[simp] theorem oriented_oriented (s : Side) (n : Int) : s.oriented (s.oriented n) = n := by
  cases s <;> simp [oriented]

@[simp] theorem oriented_opposite (s : Side) (n : Int) : s.opposite.oriented n = -s.oriented n := by
  cases s <;> simp [oriented, opposite]

theorem oriented_add (s : Side) (m n : Int) :
    s.oriented (m + n) = s.oriented m + s.oriented n := by
  cases s
  · rfl
  · exact Int.neg_add

theorem oriented_neg (s : Side) (n : Int) : s.oriented (-n) = -s.oriented n := by
  cases s <;> rfl

end Side

theorem Posting.signedUnits_eq (p : Posting) : p.signedUnits = p.side.oriented p.amount.units := by
  unfold signedUnits
  cases p.side <;> rfl

/-- The impact of an entry is its amount as its account counts it. -/
theorem Entry.units_impact (e : Entry) :
    e.impact.units = e.account.side.oriented e.posting.signedUnits := by
  rw [Posting.signedUnits_eq]
  change (if e.increases then e.amount else -e.amount).units =
    e.account.side.oriented (e.side.oriented e.amount.units)
  unfold increases
  cases e.side <;> cases e.account.side <;> simp [Side.oriented]

/-! ## One balance -/

namespace LayerBalance

/-- The total on a side. -/
def on (b : LayerBalance) : Side → Decimal
  | .debit => b.debits
  | .credit => b.credits

/-- Debits minus credits, in units. -/
def net (b : LayerBalance) : Int := b.debits.units - b.credits.units

@[simp] theorem net_empty (side : Side) : (empty side).net = 0 := by simp [net, empty]

theorem net_add {b b' : LayerBalance} {side : Side} {amount : Decimal}
    (h : b.add side amount = .ok b') (hexact : (b.on side).AddsExactly amount) :
    b'.side = b.side ∧ b'.net = b.net + side.oriented amount.units := by
  obtain ⟨sum, hsum, hunits⟩ := gives_iff.1 hexact
  cases side with
  | debit =>
    have hsum : b.debits.add amount = .ok sum := hsum
    have hunits : sum.units = b.debits.units + amount.units := hunits
    rw [add, hsum] at h
    obtain rfl := Except.ok.inj h
    refine ⟨rfl, ?_⟩
    simp only [net, hunits, Side.oriented]
    omega
  | credit =>
    have hsum : b.credits.add amount = .ok sum := hsum
    have hunits : sum.units = b.credits.units + amount.units := hunits
    rw [add, hsum] at h
    obtain rfl := Except.ok.inj h
    refine ⟨rfl, ?_⟩
    simp only [net, hunits, Side.oriented]
    omega

theorem exists_add {b : LayerBalance} {side : Side} {amount : Decimal}
    (hexact : (b.on side).AddsExactly amount) : ∃ b', b.add side amount = .ok b' := by
  obtain ⟨sum, hsum, -⟩ := gives_iff.1 hexact
  cases side <;> exact ⟨_, map_eq_ok.2 ⟨sum, hsum, rfl⟩⟩

end LayerBalance

namespace BalanceStore

/-! ## Nets by key -/

/-- Debits minus credits at a key, in units. -/
def netAt (store : BalanceStore) (key : BalanceKey) : Int :=
  ((store.get? key).map LayerBalance.net).getD 0

/-- The balance that an entry is added to. -/
def held (store : BalanceStore) (journal : JournalId) (e : Entry) : LayerBalance :=
  (store.get? (keyOf journal e)).getD (.empty e.account.side)

theorem netAt_put (store : BalanceStore) (key k : BalanceKey) (b : LayerBalance) :
    (store.put key b).netAt k = if k = key then b.net else store.netAt k := by
  unfold netAt
  rw [get?_put]
  split <;> rfl

theorem net_held (store : BalanceStore) (journal : JournalId) (e : Entry) :
    (store.held journal e).net = store.netAt (keyOf journal e) := by
  unfold held netAt
  cases store.get? (keyOf journal e) <;> simp

theorem postEntry_eq_ok {store next : BalanceStore} {journal : JournalId} {e : Entry} :
    store.postEntry journal e = .ok next ↔
      ∃ b, (store.held journal e).add e.side e.amount = .ok b ∧
        store.put (keyOf journal e) b = next := map_eq_ok

/-! ## Nothing is rounded -/

/-- Entries are posted one after the other, and no sum is rounded. -/
def PostsExactly (journal : JournalId) : BalanceStore → List Entry → Prop
  | _, [] => True
  | store, e :: rest => ((store.held journal e).on e.side).AddsExactly e.amount ∧
      ∀ next, store.postEntry journal e = .ok next → PostsExactly journal next rest

instance decidablePostsExactly (journal : JournalId) :
    ∀ (store : BalanceStore) (entries : List Entry),
      Decidable (PostsExactly journal store entries)
  | _, [] => .isTrue trivial
  | _, _ :: rest =>
    have (next : BalanceStore) := decidablePostsExactly journal next rest
    inferInstanceAs (Decidable (_ ∧ ∀ _, _ → _))

/-- The balance at a key, if there is one, is read without rounding. -/
def ReadsExactly (store : BalanceStore) (key : BalanceKey) : Prop :=
  ∀ b ∈ store.get? key, Gives b.balance (b.side.oriented b.net)

instance (store : BalanceStore) (key : BalanceKey) : Decidable (store.ReadsExactly key) :=
  inferInstanceAs (Decidable (∀ b ∈ _, _))

theorem PostsExactly.exists_foldlM {store : BalanceStore} {journal : JournalId}
    {entries : List Entry} (h : store.PostsExactly journal entries) :
    ∃ store', entries.foldlM (fun store e => store.postEntry journal e) store = .ok store' := by
  induction entries generalizing store with
  | nil => exact ⟨store, rfl⟩
  | cons e rest ih =>
    obtain ⟨b, hb⟩ := LayerBalance.exists_add h.1
    have hnext := postEntry_eq_ok.2 ⟨b, hb, rfl⟩
    obtain ⟨store', hstore'⟩ := ih (h.2 _ hnext)
    rw [List.foldlM_cons]
    exact ⟨store', bind_eq_ok.2 ⟨_, hnext, hstore'⟩⟩

theorem netAt_postEntry {store next : BalanceStore} {journal : JournalId} {e : Entry}
    (h : store.postEntry journal e = .ok next)
    (hexact : ((store.held journal e).on e.side).AddsExactly e.amount) (key : BalanceKey) :
    next.netAt key =
      store.netAt key + if key = keyOf journal e then e.posting.signedUnits else 0 := by
  obtain ⟨b, hb, rfl⟩ := postEntry_eq_ok.1 h
  rw [netAt_put]
  split
  · rename_i hkey
    rw [(LayerBalance.net_add hb hexact).2, net_held, hkey, Posting.signedUnits_eq]
    rfl
  · rw [add_zero]

/-- Only keys of entries change when a transaction is posted. -/
theorem get?_apply {store store' : BalanceStore} {t : Transaction}
    (h : store.apply t = .ok store') {key : BalanceKey}
    (hkey : ∀ e ∈ t.entries, keyOf t.journal e ≠ key) : store'.get? key = store.get? key := by
  unfold BalanceStore.apply at h
  generalize t.entries = entries at h hkey
  induction entries generalizing store with
  | nil =>
    obtain rfl : store = store' := by simpa [pure, Except.pure] using h
    rfl
  | cons e rest ih =>
    rw [List.foldlM_cons] at h
    obtain ⟨next, hnext, h⟩ := bind_eq_ok.1 h
    obtain ⟨b, -, rfl⟩ := postEntry_eq_ok.1 hnext
    rw [ih h fun x hx => hkey x (by simp [hx]), get?_put, if_neg (hkey e (by simp)).symm]

theorem balance_congr {store store' : BalanceStore} {journal : JournalId} {a : Account}
    {layer : Layer}
    (h : store'.get? ⟨journal, a.id, layer⟩ = store.get? ⟨journal, a.id, layer⟩) :
    store'.balance journal a layer = store.balance journal a layer := by
  unfold balance
  rw [h]

end BalanceStore

/-- What a transaction adds to the net at a key. -/
def Transaction.netAt (t : Transaction) (key : BalanceKey) : Int :=
  if t.journal = key.journal then net (fun a => a.id = key.account) key.layer t.postings else 0

theorem BalanceKey.eq_keyOf {key : BalanceKey} {journal : JournalId} {e : Entry} :
    key = BalanceStore.keyOf journal e ↔
      journal = key.journal ∧ e.account.id = key.account ∧ e.layer = key.layer := by
  obtain ⟨j, a, l⟩ := key
  simp [BalanceStore.keyOf, eq_comm]

/-- **Posting adds the net of the transaction at every key.** -/
theorem BalanceStore.netAt_apply {store store' : BalanceStore} {t : Transaction}
    (h : store.apply t = .ok store') (hexact : store.PostsExactly t.journal t.entries)
    (key : BalanceKey) : store'.netAt key = store.netAt key + t.netAt key := by
  unfold BalanceStore.apply at h
  unfold Transaction.netAt Transaction.postings
  generalize t.entries = entries at h hexact
  induction entries generalizing store with
  | nil =>
    obtain rfl : store = store' := by simpa [pure, Except.pure] using h
    simp
  | cons e rest ih =>
    -- the first entry goes into the store that the rest starts from
    rw [List.foldlM_cons] at h
    obtain ⟨next, hnext, h⟩ := bind_eq_ok.1 h
    rw [ih h (hexact.2 next hnext), netAt_postEntry hnext hexact.1, List.map_cons, net_cons,
      add_assoc]
    by_cases hj : t.journal = key.journal
    · simp only [BalanceKey.eq_keyOf, hj, true_and, if_true, decide_eq_true_eq]
      rfl
    · simp [BalanceKey.eq_keyOf, hj]

/-! ## Sides of balances -/

namespace BalanceStore

/-- The balances of known accounts grow on the sides of the accounts. -/
def KeepsSides (known : Set Account) (store : BalanceStore) : Prop :=
  ∀ a ∈ known, ∀ journal layer, ∀ b ∈ store.get? ⟨journal, a.id, layer⟩, b.side = a.side

namespace KeepsSides

variable {known : Set Account} {store : BalanceStore}

theorem empty : KeepsSides known ∅ := fun _ _ _ _ _ hb => nomatch hb

theorem put (h : store.KeepsSides known) (hknown : known.InjOn Account.id) {a : Account}
    (ha : a ∈ known) {journal : JournalId} {layer : Layer} {b : LayerBalance}
    (hb : b.side = a.side) : (store.put ⟨journal, a.id, layer⟩ b).KeepsSides known := by
  intro x hx j l c hc
  rw [get?_put] at hc
  split at hc
  · rename_i hkey
    obtain rfl : x = a := hknown hx ha (congrArg BalanceKey.account hkey)
    obtain rfl : b = c := Option.some.inj hc
    exact hb
  · exact h x hx j l c hc

theorem set (h : store.KeepsSides known) (hknown : known.InjOn Account.id) {a : Account}
    (ha : a ∈ known) (journal : JournalId) (layer : Layer) (amount : Decimal) :
    (store.set journal a layer amount).KeepsSides known :=
  h.put hknown ha (by unfold LayerBalance.ofSum; cases a.side <;> rfl)

theorem postEntry (h : store.KeepsSides known) (hknown : known.InjOn Account.id)
    {journal : JournalId} {e : Entry} (he : e.account ∈ known) {next : BalanceStore}
    (hnext : store.postEntry journal e = .ok next) : next.KeepsSides known := by
  obtain ⟨b, hb, rfl⟩ := postEntry_eq_ok.1 hnext
  have hheld : (store.held journal e).side = e.account.side := by
    unfold held
    cases hget : store.get? (keyOf journal e) with
    | none => rfl
    | some c => exact h _ he journal e.layer c hget
  refine h.put hknown he ?_
  rw [← hheld]
  unfold LayerBalance.add at hb
  split at hb <;>
  · obtain ⟨sum, -, rfl⟩ := map_eq_ok.1 hb
    rfl

theorem apply (h : store.KeepsSides known) (hknown : known.InjOn Account.id) {t : Transaction}
    (ht : ∀ e ∈ t.entries, e.account ∈ known) {store' : BalanceStore}
    (happly : store.apply t = .ok store') : store'.KeepsSides known := by
  unfold BalanceStore.apply at happly
  generalize t.entries = entries at ht happly
  induction entries generalizing store with
  | nil =>
    obtain rfl : store = store' := by simpa [pure, Except.pure] using happly
    exact h
  | cons e rest ih =>
    rw [List.foldlM_cons] at happly
    obtain ⟨next, hnext, happly⟩ := bind_eq_ok.1 happly
    exact ih (h.postEntry hknown (ht e (by simp)) hnext) (fun x hx => ht x (by simp [hx])) happly

/-- **Readings are nets**, as the accounts count them. -/
theorem balance (h : store.KeepsSides known) {a : Account} (ha : a ∈ known) {journal : JournalId}
    {layer : Layer} (hexact : store.ReadsExactly ⟨journal, a.id, layer⟩) :
    Gives (store.balance journal a layer)
      (a.side.oriented (store.netAt ⟨journal, a.id, layer⟩)) := by
  unfold BalanceStore.balance netAt
  cases hb : store.get? ⟨journal, a.id, layer⟩ with
  | none => exact gives_iff.2 ⟨0, rfl, by simp⟩
  | some b =>
    have hread := hexact b hb
    rw [h a ha journal layer b hb] at hread
    exact hread

end KeepsSides

theorem lookup_single (store : BalanceStore) (journal : JournalId) (a : Account) (layer : Layer) :
    store.lookup ⟨journal, a, [layer]⟩ = (store.balance journal a layer).map .ok := by
  unfold lookup total
  dsimp only
  rw [List.foldlM_cons]
  cases store.balance journal a layer <;> rfl

theorem lookup_single_eq_ok {store : BalanceStore} {journal : JournalId} {a : Account}
    {layer : Layer} {amount : Decimal} : store.lookup ⟨journal, a, [layer]⟩ = .ok (.ok amount) ↔
      store.balance journal a layer = .ok amount := by
  rw [lookup_single, map_eq_ok]
  exact ⟨fun ⟨_, h, heq⟩ => Except.ok.inj heq ▸ h, fun h => ⟨amount, h, rfl⟩⟩

end BalanceStore

/-! ## Impacts -/

/-- The exact impact of a transaction on the balance of an account on a layer. -/
def Transaction.impactUnits (t : Transaction) (account : AccountId) (layer : Layer) : Int :=
  ((t.entries.filter fun e => e.account.id = account ∧ e.layer = layer).map
    fun e => e.impact.units).sum

/-- An impact is the net, as the account counts it. -/
theorem Transaction.impactUnits_eq {t : Transaction} {a : Account} {layer : Layer}
    (h : ∀ e ∈ t.entries, e.account.id = a.id → e.account = a) :
    t.impactUnits a.id layer = a.side.oriented (net (fun x => x.id = a.id) layer t.postings) := by
  unfold impactUnits postings
  generalize t.entries = entries at h
  induction entries with
  | nil => simp
  | cons e rest ih =>
    have ih := ih fun x hx => h x (by simp [hx])
    rw [List.map_cons, net_cons, Side.oriented_add, ← ih]
    simp only [decide_eq_true_eq]
    change _ = a.side.oriented (if e.account.id = a.id ∧ e.layer = layer then _ else 0) + _
    by_cases he : e.account.id = a.id ∧ e.layer = layer
    · rw [List.filter_cons_of_pos (by simpa using he), List.map_cons, List.sum_cons,
        Entry.units_impact, if_pos he, h e (by simp) he.1]
    · rw [List.filter_cons_of_neg (by simpa using he), if_neg he, Side.oriented_zero, zero_add]

theorem Transaction.impactUnits_eq_netAt {t : Transaction} {a : Account} {layer : Layer}
    (h : ∀ e ∈ t.entries, e.account.id = a.id → e.account = a) :
    t.impactUnits a.id layer = a.side.oriented (t.netAt ⟨t.journal, a.id, layer⟩) := by
  rw [impactUnits_eq h, netAt, if_pos rfl]

end LayeredLedger
