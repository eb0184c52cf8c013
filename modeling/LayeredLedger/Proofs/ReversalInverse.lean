import LayeredLedger.Proofs.Balances
import LayeredLedger.Proofs.DoubleEntry
import LayeredLedger.Proofs.SmallLedger
import LayeredLedger.Proofs.StandardRules

/-!
# Reversals undo

A reversal is the mirror image of a transaction: every entry stands on its other side. At every
key the mirror image takes away what the transaction added, whatever the transaction is like, and
its debits add up as the credits did.

* `BalanceStore.postsExactly_append`: posting one list of entries after another;
* `BalanceStore.exists_side_apply`, `BalanceStore.exists_gives_of_netAt_eq`: a balance keeps its
  side, so equal nets are read as equal balances;
* `Transaction.netAt_reversal`, `Transaction.entries_reversal_reversal`,
  `Transaction.validate_reversal_iff`: what the mirror image is like;
* `Transaction.apply_reversal`: there and back in a store;
* `RuleEngine.category_ne_validation`: the standard rules find a balanced transaction well formed;
* **`reversal_undoes`**: a reversal is a true inverse, and is built whenever it can be.
-/

namespace LayeredLedger

/-! ## Keys and their readings -/

namespace BalanceStore

/-- Nothing is rounded when entries are posted one list after the other. -/
theorem postsExactly_append {store : BalanceStore} {journal : JournalId} {es fs : List Entry} :
    store.PostsExactly journal (es ++ fs) ↔ store.PostsExactly journal es ∧
      ∀ next, es.foldlM (fun store e => store.postEntry journal e) store = .ok next →
        next.PostsExactly journal fs := by
  induction es generalizing store with
  | nil => simp [PostsExactly, pure, Except.pure]
  | cons e es ih =>
    simp only [List.cons_append, PostsExactly, ih, List.foldlM_cons, bind_eq_ok]
    constructor
    · rintro ⟨hfirst, hrest⟩
      exact ⟨⟨hfirst, fun next hnext => (hrest next hnext).1⟩,
        fun last ⟨next, hnext, hlast⟩ => (hrest next hnext).2 last hlast⟩
    · rintro ⟨⟨hfirst, hrest⟩, hlast⟩
      exact ⟨hfirst, fun next hnext =>
        ⟨hrest next hnext, fun last h => hlast last ⟨next, hnext, h⟩⟩⟩

theorem exists_side_postEntry {store next : BalanceStore} {journal : JournalId} {e : Entry}
    (h : store.postEntry journal e = .ok next) {key : BalanceKey} {b : LayerBalance}
    (hb : store.get? key = some b) : ∃ b', next.get? key = some b' ∧ b'.side = b.side := by
  obtain ⟨sum, hsum, rfl⟩ := postEntry_eq_ok.1 h
  by_cases hkey : key = keyOf journal e
  · subst hkey
    refine ⟨sum, by rw [get?_put, if_pos rfl], ?_⟩
    have hheld : store.held journal e = b := by rw [held, hb, Option.getD_some]
    rw [hheld] at hsum
    cases hside : e.side <;>
    · rw [hside] at hsum
      obtain ⟨_, -, rfl⟩ := map_eq_ok.1 hsum
      rfl
  · exact ⟨b, by rw [get?_put, if_neg hkey, hb], rfl⟩

/-- A balance that is there stays there, on its side. -/
theorem exists_side_apply {store store' : BalanceStore} {t : Transaction}
    (h : store.apply t = .ok store') {key : BalanceKey} {b : LayerBalance}
    (hb : store.get? key = some b) : ∃ b', store'.get? key = some b' ∧ b'.side = b.side := by
  unfold apply at h
  generalize t.entries = entries at h
  induction entries generalizing store b with
  | nil =>
    obtain rfl : store = store' := by simpa [pure, Except.pure] using h
    exact ⟨b, hb, rfl⟩
  | cons e rest ih =>
    rw [List.foldlM_cons] at h
    obtain ⟨next, hnext, h⟩ := bind_eq_ok.1 h
    obtain ⟨b', hb', hside'⟩ := exists_side_postEntry hnext hb
    obtain ⟨b'', hb'', hside''⟩ := ih hb' h
    exact ⟨b'', hb'', hside''.trans hside'⟩

/-- A key with the same net as before is read as before. A balance that was not there before
reads as zero on either side. -/
theorem exists_gives_of_netAt_eq {store store' : BalanceStore} {journal : JournalId} {a : Account}
    {layer : Layer}
    (hside : ∀ b, store.get? ⟨journal, a.id, layer⟩ = some b →
      ∃ b', store'.get? ⟨journal, a.id, layer⟩ = some b' ∧ b'.side = b.side)
    (hnet : store'.netAt ⟨journal, a.id, layer⟩ = store.netAt ⟨journal, a.id, layer⟩)
    (hread : store.ReadsExactly ⟨journal, a.id, layer⟩)
    (hread' : store'.ReadsExactly ⟨journal, a.id, layer⟩) :
    ∃ n, Gives (store.balance journal a layer) n ∧ Gives (store'.balance journal a layer) n := by
  unfold balance
  unfold netAt at hnet
  cases hb : store.get? ⟨journal, a.id, layer⟩ with
  | some b =>
    obtain ⟨b', hb', hs⟩ := hside b hb
    have hn : b'.net = b.net := by simpa [hb, hb'] using hnet
    have hgives' := hread' b' hb'
    rw [hs, hn] at hgives'
    exact ⟨_, hread b hb, by simpa [hb'] using hgives'⟩
  | none =>
    have hzero : Gives (.ok 0) 0 := gives_iff.2 ⟨0, rfl, Decimal.units_zero⟩
    refine ⟨0, hzero, ?_⟩
    cases hb' : store'.get? ⟨journal, a.id, layer⟩ with
    | none => exact hzero
    | some b' =>
      have hn : b'.net = 0 := by simpa [hb, hb'] using hnet
      have hgives' := hread' b' hb'
      rwa [hn, Side.oriented_zero] at hgives'

end BalanceStore

/-! ## The mirror image -/

namespace Transaction

/-- At every key a reversal takes away what the transaction added. -/
theorem netAt_reversal (t : Transaction) (reference : String) (key : BalanceKey) :
    (t.reversal reference).netAt key = -t.netAt key := by
  unfold netAt
  rw [postings_reversal, net_opposite]
  change (if t.journal = key.journal then _ else _) = _
  split <;> rfl

/-- What takes back a reversal has the entries that the transaction has. -/
theorem entries_reversal_reversal (t : Transaction) (reference again : String) :
    ((t.reversal reference).reversal again).entries = t.entries := by
  change (t.entries.map _).map _ = t.entries
  rw [List.map_map]
  conv_rhs => rw [← List.map_id t.entries]
  refine List.map_congr_left fun e _ => ?_
  change { e with side := e.side.opposite.opposite } = e
  rw [Side.opposite_opposite]

/-- A reversal is valid if and only if the transaction is. -/
theorem validate_reversal_iff (t : Transaction) (reference : String) :
    validate (t.reversal reference).entries = .ok () ↔ validate t.entries = .ok () := by
  refine ⟨fun h => ?_, fun h => validate_reversal h reference⟩
  -- the way back of the way back is the transaction again
  have hback := validate_reversal h reference
  rwa [entries_reversal_reversal] at hback

/-- Posting a transaction and then its reversal leaves every balance as it was. -/
theorem apply_reversal {t : Transaction} {reference : String} {store : BalanceStore}
    (hexact : store.PostsExactly t.journal (t.entries ++ (t.reversal reference).entries)) :
    ∃ posted restored, store.apply t = .ok posted ∧
      posted.apply (t.reversal reference) = .ok restored ∧
      ∀ journal (a : Account) layer, store.ReadsExactly ⟨journal, a.id, layer⟩ →
        restored.ReadsExactly ⟨journal, a.id, layer⟩ →
        ∃ n, Gives (store.balance journal a layer) n ∧
          Gives (restored.balance journal a layer) n := by
  obtain ⟨hpost, hback⟩ := BalanceStore.postsExactly_append.1 hexact
  obtain ⟨posted, hposted⟩ := hpost.exists_foldlM
  have hback := hback posted hposted
  obtain ⟨restored, hrestored⟩ : ∃ restored, posted.apply (t.reversal reference) = .ok restored :=
    hback.exists_foldlM
  refine ⟨posted, restored, hposted, hrestored, fun journal a layer hread hread' => ?_⟩
  have hside : ∀ b, store.get? ⟨journal, a.id, layer⟩ = some b →
      ∃ b', restored.get? ⟨journal, a.id, layer⟩ = some b' ∧ b'.side = b.side := fun b hb => by
    obtain ⟨b', hb', hside⟩ := BalanceStore.exists_side_apply hposted hb
    obtain ⟨b'', hb'', hside'⟩ := BalanceStore.exists_side_apply hrestored hb'
    exact ⟨b'', hb'', hside'.trans hside⟩
  refine BalanceStore.exists_gives_of_netAt_eq hside ?_ hread hread'
  rw [BalanceStore.netAt_apply hrestored hback, BalanceStore.netAt_apply hposted hpost,
    netAt_reversal]
  omega

end Transaction

/-! ## The way to a reversal -/

/-- The standard rules find nothing malformed in a transaction that balances on every layer. -/
theorem RuleEngine.category_ne_validation {currencies : CurrencyRegistry} {t : Transaction}
    (hbalances : ∀ layer, BalancesOn t.postings layer) {lookup : BalanceLookup} {e : LedgerError}
    (h : (standard currencies).evaluate t lookup = .error (.error e)) :
    e.category ≠ .validation := by
  intro hmalformed
  rcases bind_eq_error.1 h with h | ⟨tags, -, h⟩
  · obtain ⟨e', he', heq⟩ := orError_eq_error.1 h
    obtain rfl := Failure.error.inj heq
    obtain ⟨name, value, rfl⟩ := error_of_ofTags he'
    cases hmalformed
  obtain ⟨r, hr, h⟩ := exists_of_forM_eq_error h
  have hdouble : ∀ layers, (Registration.forAll doubleEntry layers).run t tags lookup = .ok () :=
    fun layers => run_forAll fun ctx hentries _ _ _ _ => forM_eq_ok_iff.2 fun layer _ => by
      rw [hentries]
      exact checkLayer_of_balancesOn (hbalances layer)
  have hlimit : ∀ kind layers,
      (Registration.forAll (limitRule kind) layers).run t tags lookup ≠ .error (.error e) := by
    intro kind layers hrun
    rcases Registration.error_of_run hrun with ⟨ctx, hcheck⟩ | hrejection
    · obtain ⟨code, limit, breach, rfl⟩ := error_of_limitRule hcheck
      cases hmalformed
    · rw [hrejection] at hmalformed
      cases hmalformed
  simp only [standard, List.mem_cons, List.not_mem_nil, or_false] at hr
  rcases hr with rfl | rfl | rfl
  · rw [hdouble] at h
    cases h
  · exact hlimit _ _ h
  · exact hlimit _ _ h

/-- A valid transaction that is not reversed has a reversal, which only the rules can refuse. -/
theorem LedgerService.reverse_of_validate {t : Transaction} (h : validate t.entries = .ok ())
    (s : LedgerService) (reference : String) (lookup : BalanceLookup) :
    (s.reverse t reference lookup).1 =
      if t.isReversed then .ok .alreadyReversed
      else (s.rules.evaluate (t.reversal reference) lookup).map
        fun _ => .reversed (t.reversal reference) := by
  unfold reverse
  by_cases hr : t.isReversed = true
  · rw [if_pos hr, if_pos hr]
  · have hdraft := reversalDraft_eq_ok.2 ⟨rfl, t.validate_reversal h reference⟩
    rw [if_neg hr, if_neg hr, hdraft]
    cases hrules : s.rules.evaluate (t.reversal reference) lookup with
    | ok _ => simp [approve, hrules, bind, Except.bind, pure, Except.pure, Except.map]
    | error f => simp [approve, hrules, bind, Except.bind, Except.map]

/-! ## The main result -/

/-- **A reversal is a true inverse.** Posted after the transaction without rounding, it leaves
every balance of every store as it was. Taken back itself, it has the entries of the transaction
again. It is valid if and only if the transaction is, so that a valid transaction can be reversed
unless a rule refuses, and the standard rules never refuse it as malformed. -/
theorem reversal_undoes (t : Transaction) (reference : String) :
    (∀ store : BalanceStore,
      store.PostsExactly t.journal (t.entries ++ (t.reversal reference).entries) →
      ∃ posted restored, store.apply t = .ok posted ∧
        posted.apply (t.reversal reference) = .ok restored ∧
        ∀ journal (a : Account) layer, store.ReadsExactly ⟨journal, a.id, layer⟩ →
          restored.ReadsExactly ⟨journal, a.id, layer⟩ →
          ∃ n, Gives (store.balance journal a layer) n ∧
            Gives (restored.balance journal a layer) n) ∧
    (∀ again, ((t.reversal reference).reversal again).entries = t.entries) ∧
    (validate (t.reversal reference).entries = .ok () ↔ validate t.entries = .ok ()) ∧
    (validate t.entries = .ok () → ∀ (s : LedgerService) lookup,
      (s.reverse t reference lookup).1 =
        if t.isReversed then .ok .alreadyReversed
        else (s.rules.evaluate (t.reversal reference) lookup).map
          fun _ => .reversed (t.reversal reference)) ∧
    (validate t.entries = .ok () → ∀ currencies lookup e,
      (RuleEngine.standard currencies).evaluate (t.reversal reference) lookup =
        .error (.error e) → e.category ≠ .validation) := by
  refine ⟨fun store hexact => Transaction.apply_reversal hexact,
    t.entries_reversal_reversal reference, t.validate_reversal_iff reference, ?_, ?_⟩
  · intro h s lookup
    exact s.reverse_of_validate h reference lookup
  · intro h currencies lookup e herror
    obtain ⟨-, -, hbalances⟩ := validate_eq_ok_iff.1 (t.validate_reversal h reference)
    exact RuleEngine.category_ne_validation hbalances herror

open SmallLedger in
/-- A transfer by somebody who has used ten dollars of the limit before, and its reversal. -/
theorem reversal_undoes_smallLedger :
    ∃ t posted restored n,
      service.create (payment 40) chart usedTen.lookup = .ok t ∧ usedTen.apply t = .ok posted ∧
      posted.apply (t.reversal "T2") = .ok restored ∧
      Gives (usedTen.balance journal payer (.of .dailyLimit usdId)) n ∧
      Gives (restored.balance journal payer (.of .dailyLimit usdId)) n ∧
      validate (t.reversal "T2").entries = .ok () ∧
      (service.reverse t "T2" posted.lookup).1 =
        (service.rules.evaluate (t.reversal "T2") posted.lookup).map
          fun _ => .reversed (t.reversal "T2") := by
  let key : BalanceKey := ⟨journal, payer.id, .of .dailyLimit usdId⟩
  obtain ⟨t, ht, hrun⟩ := bind_eq_ok.1 (by decide +kernel : (do
    let t ← service.create (payment 40) chart usedTen.lookup
    let posted ← orOverflow (usedTen.apply t)
    let restored ← orOverflow (posted.apply (t.reversal "T2"))
    return decide (usedTen.PostsExactly t.journal (t.entries ++ (t.reversal "T2").entries) ∧
      usedTen.ReadsExactly key ∧ restored.ReadsExactly key ∧ t.isReversed = false)) =
        (.ok true : Except Failure Bool))
  obtain ⟨posted, hposted, hrun⟩ := bind_eq_ok.1 hrun
  obtain ⟨restored, hrestored, hrun⟩ := bind_eq_ok.1 hrun
  rw [orOverflow_eq_ok] at hposted hrestored
  obtain ⟨hexact, hread, hread', hreversed⟩ := of_decide_eq_true (Except.ok.inj hrun)
  have hvalid := (LedgerService.create_eq_ok.1 ht).2.1
  obtain ⟨hback, -, hiff, hreverse, -⟩ := reversal_undoes t "T2"
  obtain ⟨posted', restored', hposted', hrestored', hsame⟩ := hback usedTen hexact
  obtain rfl := Except.ok.inj (hposted.symm.trans hposted')
  obtain rfl := Except.ok.inj (hrestored.symm.trans hrestored')
  obtain ⟨n, hn, hn'⟩ := hsame journal payer (.of .dailyLimit usdId) hread hread'
  refine ⟨t, posted, restored, n, ht, hposted, hrestored, hn, hn', hiff.2 hvalid, ?_⟩
  rw [hreverse hvalid service posted.lookup, if_neg (by simp [hreversed])]

end LayeredLedger
