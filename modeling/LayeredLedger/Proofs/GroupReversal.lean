import LayeredLedger.Proofs.LimitLayers
import LayeredLedger.Proofs.Marking
import LayeredLedger.Proofs.ReversalInverse
import LayeredLedger.Proofs.Usage

/-!
# Reversing a group at once and in turn

The reversals of a group are checked one by one, and all of them against the store as it is. If
they were posted one after the other, each would be checked against a store in which the newer
ones are undone. The two ways make the same reversals, but they do not always allow them: an older
transaction may be within its limit only once a newer one is taken back.

* `LedgerService.Made`, `Transaction.Checks`: transactions of the service, and the usage that the
  rules look at when one of them is reversed;
* `LedgerService.ReversesInTurn`: reversing one after the other;
* `LedgerService.Made.approve_reversal`: limits are all that can stand against a reversal;
* `Transaction.FreesWithin`, `FreesInTurn`: the two ways in exact numbers;
* `LedgerService.Made.netAt_nonpos`: usage is recorded as credits;
* **`group_reversal_sees_one_store`**: what the two ways have in common;
* `group_reversal_refuses_more`: where they differ.
-/

namespace LayeredLedger

open BalanceStore (keyOf)

/-! ## Transactions to reverse -/

/-- The service made the transaction at some time. Since then it may have got a date and may have
been completed. -/
inductive LedgerService.Made (s : LedgerService) (known : Set Account) : Transaction → Prop where
  | of_create {request : TransactionRequest} {chart : Chart} {lookup : BalanceLookup}
      {t m : Transaction} (hchart : chart.Within known)
      (hcreate : s.create request chart lookup = .ok t) (hversion : m.IsVersionOf t)
      (htags : m.tags = t.tags ∨ m.tags = t.tags.add Transaction.completedMark) : Made s known m

namespace Transaction

/-- The reversal of a transaction under no reference. It has the entries of every reversal. -/
def wayBack (m : Transaction) : Transaction := m.reversal ""

@[simp] theorem journal_wayBack (m : Transaction) : m.wayBack.journal = m.journal := rfl

/-- The tags set a limit, and the entry is on the limit layer of an account other than a bridge.
So the rules look at the usage of the account. -/
structure Checks (m : Transaction) (kind : LimitKind) (limit : Decimal) (e : Entry) : Prop where
  sets : m.SetsLimit kind limit
  mem : e ∈ m.entries
  layer : e.layer = kind.usageLayer e.account
  isBridge : e.account.isBridge = false

/-- A lookup shows that the reversal leaves all usage within the limits of the transaction. -/
def ReversesWithin (m : Transaction) (lookup : BalanceLookup) : Prop :=
  ∀ kind limit e, m.Checks kind limit e →
    ∃ p, kind.UsageWithin lookup m.wayBack e.account limit p

/-- The transaction posts nothing where the rules look when an older one is reversed. -/
def LeavesAlone (newer older : Transaction) : Prop :=
  ∀ kind limit e, older.Checks kind limit e →
    ∀ x ∈ newer.entries, keyOf newer.journal x ≠ keyOf older.journal e

/-- Without what the transaction recorded, the nets are within its limits. -/
def FreesWithin (m : Transaction) (nets : BalanceKey → Int) : Prop :=
  ∀ kind limit e, m.Checks kind limit e → e.account.side.oriented
    (nets (keyOf m.journal e) - m.netAt (keyOf m.journal e)) ≤ limit.units

end Transaction

/-- The nets are within the limits of each transaction once it and those before it are taken
back. -/
def FreesInTurn (nets : BalanceKey → Int) : List Transaction → Prop
  | [] => True
  | m :: rest => m.FreesWithin nets ∧ FreesInTurn (fun key => nets key - m.netAt key) rest

/-- Transactions are reversed one after the other. Each reversal is posted before the next one is
checked. -/
inductive LedgerService.ReversesInTurn (s : LedgerService) :
    BalanceStore → List Transaction → List Transaction → Prop where
  | nil (store : BalanceStore) : ReversesInTurn s store [] []
  | cons {store next : BalanceStore} {m after r : Transaction} {rest rs : List Transaction}
      {reference : String}
      (hreverse : s.reverse m reference store.lookup = (.ok (.reversed r), after))
      (happly : store.apply r = .ok next) (hrest : ReversesInTurn s next rest rs) :
      ReversesInTurn s store (m :: rest) (r :: rs)

/-- Nothing is rounded when transactions are taken back one after the other. -/
def BalanceStore.GivesBackExactly : BalanceStore → List Transaction → Prop
  | _, [] => True
  | store, m :: rest => store.TakesExactly m.wayBack ∧
      ∀ next, store.apply m.wayBack = .ok next → GivesBackExactly next rest

instance BalanceStore.decidableGivesBackExactly :
    ∀ (store : BalanceStore) (ms : List Transaction), Decidable (store.GivesBackExactly ms)
  | _, [] => .isTrue trivial
  | _, _ :: rest =>
    have (next : BalanceStore) := decidableGivesBackExactly next rest
    inferInstanceAs (Decidable (_ ∧ ∀ _, _ → _))

/-! ## What can stand against a reversal -/

namespace LedgerService.Made

variable {s : LedgerService} {known : Set Account} {m : Transaction}

theorem within (h : s.Made known m) : m.Within known := by
  obtain ⟨hchart, hcreate, hversion, -⟩ := h
  intro e he
  exact (Returned.created hchart hcreate).within e (hversion.entries ▸ he)

theorem sidesMatch (h : s.Made known m) : SidesMatch m.postings := by
  obtain ⟨-, hcreate, hversion, -⟩ := h
  rw [Transaction.postings, hversion.entries]
  exact build_sidesMatch (create_eq_ok.1 hcreate).1

theorem validate_reversal (h : s.Made known m) (reference : String) :
    validate (m.reversal reference).entries = .ok () := by
  refine Transaction.validate_reversal ?_ reference
  obtain ⟨-, hcreate, hversion, -⟩ := h
  rw [hversion.entries]
  exact (create_eq_ok.1 hcreate).2.1

/-- The rules can read the tags of a reversal. -/
theorem exists_tagsFor_reversal (h : s.Made known m) (reference : String) :
    ∃ tags, s.rules.tagsFor (m.reversal reference) = .ok tags := by
  obtain ⟨-, hcreate, -, htags⟩ := h
  have hmark : pair? Transaction.completedMark = some ("completed", "true") := by decide
  have hback : pair? ("reverses:" ++ m.detail) = some ("reverses", Text.trim m.detail) :=
    pair?_append m.detail (by decide) (by decide) (by decide)
  obtain ⟨tags, hread, -⟩ := bind_eq_ok.1 (create_eq_ok.1 hcreate).2.2
  obtain ⟨tags', hread'⟩ : ∃ tags', TagMap.ofTags s.rules.reads m.tags = .ok tags' := by
    rcases htags with htags | htags
    · exact ⟨tags, htags ▸ orError_eq_ok.1 hread⟩
    · rw [htags]
      exact ofTags_add (orError_eq_ok.1 hread) hmark (by decide)
  rw [RuleEngine.tagsFor, Transaction.tags_reversal]
  exact ofTags_add hread' hback (by decide)

/-- Usage is what an account other than a bridge has on its limit layer. -/
theorem counts_iff (h : s.Made known m) {e : Entry} (he : e ∈ m.entries) {kind : LimitKind} :
    kind.counts (s.currencies.layers [kind.band]) e = true ↔
      e.layer = kind.usageLayer e.account ∧ e.account.isBridge = false := by
  obtain ⟨-, hcreate, hversion, -⟩ := h
  obtain ⟨_, _, hd⟩ := exists_isDraft (create_eq_ok.1 hcreate).1
  exact hd.counts_iff (hversion.entries ▸ he)

variable (hrules : s.rules = .standard s.currencies) (hknown : known.InjOn Account.id)
  (h : s.Made known m)

include hrules hknown h

/-- The standard rules pass a reversal exactly if all usage stays within the limits. -/
theorem evaluate_reversal {lookup : BalanceLookup} {reference : String} :
    s.rules.evaluate (m.reversal reference) lookup = .ok () ↔ m.ReversesWithin lookup := by
  have hsets : ∀ (kind : LimitKind) limit,
      (m.reversal reference).SetsLimit kind limit ↔ m.SetsLimit kind limit := fun kind limit => by
    rw [Transaction.SetsLimit, m.get?_limit_reversal, Transaction.SetsLimit]
  obtain ⟨-, -, totals, htotals⟩ := of_validate (h.validate_reversal reference)
  have htags := h.exists_tagsFor_reversal reference
  rw [hrules] at htags ⊢
  rw [evaluate_standard_iff hknown (h.within.reversal reference) (h.sidesMatch.reversal reference)
    htotals, and_iff_right htags]
  constructor
  · rintro hlimits kind limit e ⟨hlimit, he, hlayer, hbridge⟩
    have hback : { e with side := e.side.opposite } ∈ (m.reversal reference).entries :=
      List.mem_map_of_mem he
    have hchecked := hlimits kind limit ((hsets kind limit).2 hlimit) _ hback
    exact hchecked ((h.counts_iff he).2 ⟨hlayer, hbridge⟩)
  · intro hwithin kind limit hlimit x hx hcounts
    obtain ⟨e, he, rfl⟩ := List.mem_map.1 hx
    obtain ⟨hlayer, hbridge⟩ := (h.counts_iff he).1 hcounts
    exact hwithin kind limit e ⟨(hsets kind limit).1 hlimit, he, hlayer, hbridge⟩

/-- **Limits are all that can stand against a reversal.** -/
theorem approve_reversal {lookup : BalanceLookup} {reference : String} {r : Transaction} :
    s.approve lookup (reversalDraft m reference) = .ok r ↔
      r = m.reversal reference ∧ m.ReversesWithin lookup := by
  rw [approve_eq_ok, reversalDraft_eq_ok]
  constructor
  · rintro ⟨⟨rfl, -⟩, hpass⟩
    exact ⟨rfl, (h.evaluate_reversal hrules hknown).1 hpass⟩
  · rintro ⟨rfl, hwithin⟩
    exact ⟨⟨rfl, h.validate_reversal reference⟩, (h.evaluate_reversal hrules hknown).2 hwithin⟩

/-- So it is for a transaction that is not reversed. -/
theorem exists_reverse_iff (hopen : m.isReversed = false) {lookup : BalanceLookup}
    {reference : String} :
    (∃ r, (s.reverse m reference lookup).1 = .ok (.reversed r)) ↔ m.ReversesWithin lookup := by
  constructor
  · rintro ⟨r, hr⟩
    obtain ⟨-, happroved, -⟩ := reverse_eq_reversed.1 (Prod.ext hr rfl)
    exact ((h.approve_reversal hrules hknown).1 happroved).2
  · intro hwithin
    have happroved : s.approve lookup (reversalDraft m reference) = .ok (m.reversal reference) :=
      (h.approve_reversal hrules hknown).2 ⟨rfl, hwithin⟩
    exact ⟨_, congrArg Prod.fst (reverse_eq_reversed.2 ⟨hopen, happroved, rfl⟩)⟩

end LedgerService.Made

/-! ## At once -/

section Group

variable {s : LedgerService} {known : Set Account} {reference : String} {group : List Transaction}
  {references : Nat → String} {lookup : BalanceLookup}

/-- A group is reversed at once if every reversal is allowed on its own. -/
theorem exists_reverseGroup_iff (hrules : s.rules = .standard s.currencies)
    (hknown : known.InjOn Account.id) (hmade : ∀ m ∈ group, s.Made known m) (hne : group ≠ [])
    (hopen : ∀ m ∈ group, m.isReversed = false) :
    (∃ rs, (s.reverseGroup reference group references lookup).1 = .ok (.reversed rs)) ↔
      ∀ m ∈ group, m.ReversesWithin lookup := by
  have hsorted : ∀ {m}, m ∈ newestFirst Transaction.postDate group ↔ m ∈ group :=
    (isNewestFirst_newestFirst Transaction.postDate group).perm.mem_iff
  have hdrafts : (∃ rs, (groupDrafts (newestFirst Transaction.postDate group) references).mapM
      (s.approve lookup) = .ok rs) ↔ ∀ m ∈ group, m.ReversesWithin lookup := by
    rw [exists_mapM_eq_ok_iff, groupDrafts, List.forall_mem_map]
    constructor
    · intro h m hm
      have hplace : m ∈ ((newestFirst Transaction.postDate group).zipIdx).map Prod.fst := by
        rw [List.zipIdx_map_fst]
        exact hsorted.2 hm
      obtain ⟨⟨m, i⟩, hmi, rfl⟩ := List.mem_map.1 hplace
      obtain ⟨r, hr⟩ := h _ hmi
      exact (((hmade m hm).approve_reversal hrules hknown).1 hr).2
    · rintro h ⟨m, i⟩ hmi
      have hm := hsorted.1 (List.fst_mem_of_mem_zipIdx hmi)
      exact ⟨_, ((hmade m hm).approve_reversal hrules hknown).2 ⟨rfl, h m hm⟩⟩
  rw [← hdrafts, LedgerService.reverseGroup_of_open hne hopen]
  split
  · rename_i rs hrs
    exact ⟨fun _ => ⟨rs, hrs⟩, fun _ => ⟨rs, rfl⟩⟩
  · rename_i f hf
    constructor
    · rintro ⟨_, h⟩
      cases h
    · rintro ⟨_, h⟩
      rw [hf] at h
      cases h

/-- The reversals of a group have the entries of its transactions on the other sides. -/
theorem entries_of_reverseGroup {rs group' : List Transaction}
    (h : s.reverseGroup reference group references lookup = (.ok (.reversed rs), group')) :
    rs.map Transaction.entries =
      (newestFirst Transaction.postDate group).map fun m => m.wayBack.entries := by
  have heach : (Transaction.entries ∘ fun (x : Transaction × Nat) =>
      x.1.reversal (references x.2)) = (fun m => m.wayBack.entries) ∘ Prod.fst := rfl
  rw [LedgerService.reverseGroup_eq_reversed h, List.map_map, heach, ← List.map_map,
    List.zipIdx_map_fst]

end Group

/-! ## In turn -/

section InTurn

variable {s : LedgerService} {known : Set Account} {store : BalanceStore} {m : Transaction}
  {rest rs : List Transaction}

theorem LedgerService.ReversesInTurn.entries_eq {ms : List Transaction}
    (h : s.ReversesInTurn store ms rs) :
    rs.map Transaction.entries = ms.map fun m => m.wayBack.entries := by
  induction h with
  | nil => rfl
  | cons hreverse _ _ ih =>
    obtain rfl := LedgerService.eq_of_approve_reversal
      (LedgerService.reverse_eq_reversed.1 hreverse).2.1
    rw [List.map_cons, List.map_cons, ih]
    rfl

/-- The newest is reversed, and the others after it. -/
theorem exists_reversesInTurn_cons (hrules : s.rules = .standard s.currencies)
    (hknown : known.InjOn Account.id) (hm : s.Made known m) (hopen : m.isReversed = false) :
    (∃ rs, s.ReversesInTurn store (m :: rest) rs) ↔ m.ReversesWithin store.lookup ∧
      ∃ next, store.apply m.wayBack = .ok next ∧ ∃ rs, s.ReversesInTurn next rest rs := by
  constructor
  · rintro ⟨rs, hrs⟩
    cases hrs with
    | cons hreverse happly hrest =>
      obtain ⟨-, happroved, -⟩ := LedgerService.reverse_eq_reversed.1 hreverse
      obtain ⟨rfl, hwithin⟩ := (hm.approve_reversal hrules hknown).1 happroved
      exact ⟨hwithin, _, happly, _, hrest⟩
  · rintro ⟨hwithin, next, happly, rs, hrest⟩
    have happroved : s.approve store.lookup (reversalDraft m "") = .ok m.wayBack :=
      (hm.approve_reversal hrules hknown).2 ⟨rfl, hwithin⟩
    exact ⟨_, .cons (LedgerService.reverse_eq_reversed.2 ⟨hopen, happroved, rfl⟩) happly hrest⟩

/-! ### Where nothing is shared -/

theorem Transaction.reversesWithin_congr {store' : BalanceStore}
    (h : ∀ kind limit e, m.Checks kind limit e →
      store'.get? (keyOf m.journal e) = store.get? (keyOf m.journal e)) :
    m.ReversesWithin store'.lookup ↔ m.ReversesWithin store.lookup := by
  refine forall₄_congr fun kind limit e hchecks => exists_congr fun p => ?_
  rw [usageWithin_lookup_iff (e := e) hchecks.layer, usageWithin_lookup_iff (e := e) hchecks.layer,
    m.journal_wayBack, BalanceStore.balance_congr (h kind limit e hchecks)]

/-- Posting a reversal does not matter to what is left alone. -/
theorem Transaction.LeavesAlone.reversesWithin_iff {older : Transaction} (h : m.LeavesAlone older)
    {next : BalanceStore} (happly : store.apply m.wayBack = .ok next) :
    older.ReversesWithin next.lookup ↔ older.ReversesWithin store.lookup := by
  refine Transaction.reversesWithin_congr fun kind limit e hchecks => ?_
  refine BalanceStore.get?_apply happly fun x hx => ?_
  obtain ⟨y, hy, rfl⟩ := List.mem_map.1 hx
  exact h kind limit e hchecks y hy

/-- Where nothing is shared, all limits can be checked against the store as it is. -/
theorem exists_reversesInTurn_iff (hrules : s.rules = .standard s.currencies)
    (hknown : known.InjOn Account.id) {ms : List Transaction} (hmade : ∀ m ∈ ms, s.Made known m)
    (hopen : ∀ m ∈ ms, m.isReversed = false) (halone : ms.Pairwise Transaction.LeavesAlone) :
    (∃ rs, s.ReversesInTurn store ms rs) ↔ (∀ m ∈ ms, m.ReversesWithin store.lookup) ∧
      ∃ store', (ms.map Transaction.wayBack).foldlM BalanceStore.apply store = .ok store' := by
  induction ms generalizing store with
  | nil => exact ⟨fun _ => ⟨by simp, store, rfl⟩, fun _ => ⟨[], .nil store⟩⟩
  | cons m rest ih =>
    obtain ⟨hm, hrest⟩ := List.forall_mem_cons.1 hmade
    obtain ⟨hmopen, hrestopen⟩ := List.forall_mem_cons.1 hopen
    obtain ⟨hmalone, hrestalone⟩ := List.pairwise_cons.1 halone
    -- what is checked after the newest is checked as well before it
    have hsame : ∀ next, store.apply m.wayBack = .ok next →
        ((∀ m' ∈ rest, m'.ReversesWithin next.lookup) ↔
          ∀ m' ∈ rest, m'.ReversesWithin store.lookup) := fun next happly =>
      forall₂_congr fun m' hm' => (hmalone m' hm').reversesWithin_iff happly
    rw [exists_reversesInTurn_cons hrules hknown hm hmopen, List.forall_mem_cons, List.map_cons,
      List.foldlM_cons]
    constructor
    · rintro ⟨hwithin, next, happly, hturn⟩
      obtain ⟨hwithins, store', hposted⟩ := (ih hrest hrestopen hrestalone).1 hturn
      exact ⟨⟨hwithin, (hsame next happly).1 hwithins⟩, store',
        bind_eq_ok.2 ⟨next, happly, hposted⟩⟩
    · rintro ⟨⟨hwithin, hwithins⟩, store', hposted⟩
      obtain ⟨next, happly, hposted⟩ := bind_eq_ok.1 hposted
      exact ⟨hwithin, next, happly, (ih hrest hrestopen hrestalone).2
        ⟨(hsame next happly).2 hwithins, store', hposted⟩⟩

end InTurn

/-! ## Exact numbers -/

section Exact

variable {s : LedgerService} {known : Set Account} {store : BalanceStore} {m : Transaction}

theorem Transaction.netAt_wayBack (m : Transaction) (key : BalanceKey) :
    m.wayBack.netAt key = -m.netAt key :=
  m.netAt_reversal "" key

/-- Without rounding the rules ask for nothing but the exact nets. -/
theorem Transaction.reversesWithin_iff (hknown : known.InjOn Account.id)
    (hsides : store.KeepsSides known) (hm : m.Within known)
    (hexact : store.TakesExactly m.wayBack) :
    m.ReversesWithin store.lookup ↔ m.FreesWithin store.netAt := by
  refine forall₄_congr fun kind limit e hchecks => ?_
  have hback : { e with side := e.side.opposite } ∈ m.wayBack.entries :=
    List.mem_map_of_mem hchecks.mem
  have hunits : (∃ p, kind.UsageWithin store.lookup m.wayBack e.account limit p) ↔ _ :=
    hexact.exists_usageWithin_iff hknown hsides (hm.reversal "") hback hchecks.layer
  rw [hunits, m.netAt_wayBack, ← sub_eq_add_neg]
  rfl

/-- Without rounding the ways differ only in the nets that are looked at. -/
theorem exists_reversesInTurn_iff_freesInTurn (hrules : s.rules = .standard s.currencies)
    (hknown : known.InjOn Account.id) (hsides : store.KeepsSides known) {ms : List Transaction}
    (hmade : ∀ m ∈ ms, s.Made known m) (hopen : ∀ m ∈ ms, m.isReversed = false)
    (hexact : store.GivesBackExactly ms) :
    (∃ rs, s.ReversesInTurn store ms rs) ↔ FreesInTurn store.netAt ms := by
  induction ms generalizing store with
  | nil => exact ⟨fun _ => trivial, fun _ => ⟨[], .nil store⟩⟩
  | cons m rest ih =>
    obtain ⟨hm, hrest⟩ := List.forall_mem_cons.1 hmade
    obtain ⟨hmopen, hrestopen⟩ := List.forall_mem_cons.1 hopen
    obtain ⟨hfirst, hothers⟩ := hexact
    obtain ⟨next, happly⟩ := hfirst.exists_apply
    have hnets : next.netAt = fun key => store.netAt key - m.netAt key := funext fun key => by
      rw [BalanceStore.netAt_apply happly hfirst.posts, m.netAt_wayBack, sub_eq_add_neg]
    have hsides' := hsides.apply hknown (hm.within.reversal "") happly
    rw [exists_reversesInTurn_cons hrules hknown hm hmopen,
      Transaction.reversesWithin_iff hknown hsides hm.within hfirst, FreesInTurn, ← hnets,
      ← ih hsides' hrest hrestopen (hothers next happly)]
    refine and_congr_right fun _ => ⟨?_, fun hturn => ⟨next, happly, hturn⟩⟩
    rintro ⟨next', happly', hturn⟩
    obtain rfl := Except.ok.inj (happly'.symm.trans happly)
    exact hturn

end Exact

/-! ## Usage is credited -/

section Sides

variable {s : LedgerService} {known : Set Account} (hknown : known.InjOn Account.id)

include hknown

/-- **Usage is recorded as credits.** -/
theorem LedgerService.Made.netAt_nonpos {m : Transaction} (h : s.Made known m) {a : Account}
    (ha : a ∈ known) (hbridge : a.isBridge = false) (journal : JournalId) (kind : LimitKind) :
    m.netAt ⟨journal, a.id, kind.usageLayer a⟩ ≤ 0 := by
  obtain ⟨hchart, hcreate, hversion, -⟩ := h
  obtain ⟨_, _, hd⟩ := exists_isDraft (LedgerService.create_eq_ok.1 hcreate).1
  have hnonpos := hd.netAt_nonpos hknown hchart ha hbridge journal kind
  unfold Transaction.netAt Transaction.postings at hnonpos ⊢
  rwa [hversion.journal, hversion.entries]

/-- A newer transaction only adds to the usage that the rules look at for an older one. -/
theorem LedgerService.Made.netAt_nonpos_of_checks {newer older : Transaction}
    (hnewer : s.Made known newer) (holder : s.Made known older) {kind : LimitKind}
    {limit : Decimal} {e : Entry} (hchecks : older.Checks kind limit e) :
    newer.netAt (keyOf older.journal e) ≤ 0 := by
  rw [BalanceStore.keyOf, hchecks.layer]
  exact hnewer.netAt_nonpos hknown (holder.within e hchecks.mem) hchecks.isBridge _ _

omit hknown in
theorem Transaction.FreesWithin.mono {m : Transaction} {nets nets' : BalanceKey → Int}
    (h : m.FreesWithin nets)
    (hle : ∀ kind limit e, m.Checks kind limit e →
      e.account.side.oriented (nets' (keyOf m.journal e)) ≤
        e.account.side.oriented (nets (keyOf m.journal e))) : m.FreesWithin nets' := by
  intro kind limit e hchecks
  have hbefore := h kind limit e hchecks
  have hchange := hle kind limit e hchecks
  rw [sub_eq_add_neg, Side.oriented_add] at hbefore ⊢
  omega

variable {ms : List Transaction} (hmade : ∀ m ∈ ms, s.Made known m) {nets : BalanceKey → Int}

include hmade

/-- What is within limits of accounts that grow by credits remains so as usage is taken back. -/
theorem freesInTurn_of_credit
    (hcredit : ∀ m ∈ ms, ∀ kind limit e, m.Checks kind limit e → e.account.side = .credit)
    (h : ∀ m ∈ ms, m.FreesWithin nets) : FreesInTurn nets ms := by
  induction ms generalizing nets with
  | nil => trivial
  | cons m rest ih =>
    obtain ⟨hm, hrest⟩ := List.forall_mem_cons.1 hmade
    obtain ⟨hfirst, hothers⟩ := List.forall_mem_cons.1 h
    have hcredit := (List.forall_mem_cons.1 hcredit).2
    refine ⟨hfirst, ih hrest hcredit fun m' hm' => (hothers m' hm').mono ?_⟩
    intro kind limit e hchecks
    have hnonpos := hm.netAt_nonpos_of_checks hknown (hrest m' hm') hchecks
    rw [hcredit m' hm' kind limit e hchecks, Side.oriented, Side.oriented]
    omega

/-- For accounts that grow by debits it is the other way round. -/
theorem freesWithin_of_debit
    (hdebit : ∀ m ∈ ms, ∀ kind limit e, m.Checks kind limit e → e.account.side = .debit)
    (h : FreesInTurn nets ms) : ∀ m ∈ ms, m.FreesWithin nets := by
  induction ms generalizing nets with
  | nil => simp
  | cons m rest ih =>
    obtain ⟨hm, hrest⟩ := List.forall_mem_cons.1 hmade
    have hdebit := (List.forall_mem_cons.1 hdebit).2
    refine List.forall_mem_cons.2 ⟨h.1, fun m' hm' => (ih hrest hdebit h.2 m' hm').mono ?_⟩
    intro kind limit e hchecks
    have hnonpos := hm.netAt_nonpos_of_checks hknown (hrest m' hm') hchecks
    rw [hdebit m' hm' kind limit e hchecks, Side.oriented, Side.oriented]
    omega

end Sides

/-! ## The main result -/

/-- **A group is reversed against one store.** Take transactions that a service with the standard
rules made, none of them reversed, and any store.

The group is reversed at once if and only if each of its transactions can be reversed on its own
against that store. If it can be reversed in turn as well, the newest first, both ways make the
same reversals in the same order. The two ways agree where newer transactions leave older ones
alone, as long as the reversals can be posted at all.

Where balances grow on the sides of their accounts and nothing is rounded, the group can be
reversed at once if for each transaction the recorded usage without its own is within its limits,
and in turn if the usage without its own and that of all newer ones is. So what can be reversed at once can be reversed in turn if the accounts with usage
grow by credits, and the other way round if they grow by debits. -/
theorem group_reversal_sees_one_store {s : LedgerService}
    (hrules : s.rules = .standard s.currencies) {known : Set Account}
    (hknown : known.InjOn Account.id) {store : BalanceStore} {group sorted : List Transaction}
    (hmade : ∀ m ∈ group, s.Made known m) (hne : group ≠ [])
    (hopen : ∀ m ∈ group, m.isReversed = false)
    (hsorted : newestFirst Transaction.postDate group = sorted) {reference : String}
    {references : Nat → String} {outcome : Except Failure GroupReversal}
    {group' : List Transaction}
    (h : s.reverseGroup reference group references store.lookup = (outcome, group')) :
    (∀ reference', (∃ rs, outcome = .ok (.reversed rs)) ↔
      ∀ m ∈ group, ∃ r, (s.reverse m reference' store.lookup).1 = .ok (.reversed r)) ∧
    (∀ rs rs', outcome = .ok (.reversed rs) → s.ReversesInTurn store sorted rs' →
      rs.map Transaction.entries = rs'.map Transaction.entries) ∧
    (sorted.Pairwise Transaction.LeavesAlone →
      ((∃ rs, s.ReversesInTurn store sorted rs) ↔ (∃ rs, outcome = .ok (.reversed rs)) ∧
        ∃ store', (sorted.map Transaction.wayBack).foldlM BalanceStore.apply store =
          .ok store')) ∧
    (store.KeepsSides known → (∀ m ∈ group, store.TakesExactly m.wayBack) →
      store.GivesBackExactly sorted →
      ((∃ rs, outcome = .ok (.reversed rs)) ↔ ∀ m ∈ group, m.FreesWithin store.netAt) ∧
      ((∃ rs, s.ReversesInTurn store sorted rs) ↔ FreesInTurn store.netAt sorted) ∧
      ((∀ m ∈ group, ∀ kind limit e, m.Checks kind limit e → e.account.side = .credit) →
        (∃ rs, outcome = .ok (.reversed rs)) → ∃ rs, s.ReversesInTurn store sorted rs) ∧
      ((∀ m ∈ group, ∀ kind limit e, m.Checks kind limit e → e.account.side = .debit) →
        (∃ rs, s.ReversesInTurn store sorted rs) → ∃ rs, outcome = .ok (.reversed rs))) := by
  have hmem : ∀ {m}, m ∈ sorted ↔ m ∈ group :=
    hsorted ▸ (isNewestFirst_newestFirst Transaction.postDate group).perm.mem_iff
  have hmade' : ∀ m ∈ sorted, s.Made known m := fun m hm => hmade m (hmem.1 hm)
  have hopen' : ∀ m ∈ sorted, m.isReversed = false := fun m hm => hopen m (hmem.1 hm)
  have honce : (∃ rs, outcome = .ok (.reversed rs)) ↔
      ∀ m ∈ group, m.ReversesWithin store.lookup := by
    rw [← exists_reverseGroup_iff hrules hknown hmade hne hopen, h]
  refine ⟨fun reference' => ?_, ?_, fun halone => ?_, fun hsides hexact hback => ?_⟩
  · rw [honce]
    exact forall₂_congr fun m hm =>
      ((hmade m hm).exists_reverse_iff hrules hknown (hopen m hm)).symm
  · rintro rs rs' rfl hturn
    rw [entries_of_reverseGroup h, hsorted, hturn.entries_eq]
  · rw [exists_reversesInTurn_iff hrules hknown hmade' hopen' halone, honce]
    simp only [hmem]
  · have hfrees : (∀ m ∈ group, m.ReversesWithin store.lookup) ↔
        ∀ m ∈ group, m.FreesWithin store.netAt := forall₂_congr fun m hm =>
      Transaction.reversesWithin_iff hknown hsides (hmade m hm).within (hexact m hm)
    have hturn : (∃ rs, s.ReversesInTurn store sorted rs) ↔ FreesInTurn store.netAt sorted :=
      exists_reversesInTurn_iff_freesInTurn hrules hknown hsides hmade' hopen' hback
    rw [honce, hfrees, hturn]
    refine ⟨Iff.rfl, Iff.rfl, fun hcredit hall => ?_, fun hdebit hall m hm => ?_⟩
    · exact freesInTurn_of_credit hknown hmade' (fun m hm => hcredit m (hmem.1 hm))
        fun m hm => hall m (hmem.1 hm)
    · exact freesWithin_of_debit hknown hmade' (fun m hm => hdebit m (hmem.1 hm)) hall m
        (hmem.2 hm)

open SmallLedger in
/-- Two payments within a limit are reversed at once, and in turn as well. -/
theorem group_reversal_sees_one_store_smallLedger : ∃ t₁ t₂ store₁ store₂ rs rs',
    service.create (payment 40) chart usedTen.lookup = .ok t₁ ∧
    usedTen.apply t₁ = .ok store₁ ∧
    service.create (payment 50) chart store₁.lookup = .ok t₂ ∧
    store₁.apply t₂ = .ok store₂ ∧
    (service.reverseGroup "G1" [t₁, { t₂ with postDate := 1 }] (fun _ => "R1")
      store₂.lookup).1 = .ok (.reversed rs) ∧
    service.ReversesInTurn store₂ [{ t₂ with postDate := 1 }, t₁] rs' ∧
    rs.map Transaction.entries = rs'.map Transaction.entries := by
  obtain ⟨t₁, ht₁, hrun⟩ := bind_eq_ok.1 (by decide +kernel : (do
    let t₁ ← service.create (payment 40) chart usedTen.lookup
    let store₁ ← orOverflow (usedTen.apply t₁)
    let t₂ ← service.create (payment 50) chart store₁.lookup
    let store₂ ← orOverflow (store₁.apply t₂)
    let group := [t₁, { t₂ with postDate := 1 }]
    let _ ← group.mapM fun m => service.approve store₂.lookup (reversalDraft m "R1")
    return decide (t₁.postDate = 0 ∧ store₂.GivesBackExactly [{ t₂ with postDate := 1 }, t₁] ∧
      ∀ m ∈ group, m.isReversed = false ∧ store₂.TakesExactly m.wayBack ∧
        ∀ e ∈ m.entries, e.account.isBridge = false → e.account.side = .credit)) =
      (.ok true : Except Failure Bool))
  obtain ⟨store₁, hstore₁, hrun⟩ := bind_eq_ok.1 hrun
  obtain ⟨t₂, ht₂, hrun⟩ := bind_eq_ok.1 hrun
  obtain ⟨store₂, hstore₂, hrun⟩ := bind_eq_ok.1 hrun
  obtain ⟨reversals, hreversals, hrun⟩ := bind_eq_ok.1 hrun
  obtain ⟨hdate, hback, hgroup⟩ := of_decide_eq_true (Except.ok.inj hrun)
  rw [orOverflow_eq_ok] at hstore₁ hstore₂
  have hchart : chart.Within {a | a ∈ accounts} := Chart.within_ofList fun _ ha => ha
  have hmade₁ : service.Made {a | a ∈ accounts} t₁ :=
    .of_create hchart ht₁ (.refl t₁) (.inl rfl)
  have hmade₂ : service.Made {a | a ∈ accounts} { t₂ with postDate := 1 } :=
    .of_create hchart ht₂ ⟨rfl, rfl⟩ (.inl rfl)
  have hmade : ∀ m ∈ [t₁, { t₂ with postDate := 1 }], service.Made {a | a ∈ accounts} m := by
    simpa using ⟨hmade₁, hmade₂⟩
  have hsides : store₂.KeepsSides {a | a ∈ accounts} :=
    ((BalanceStore.KeepsSides.empty.set injOn_id (by simp [accounts]) _ _ _).apply injOn_id
      hmade₁.within hstore₁).apply injOn_id hmade₂.within hstore₂
  have hsorted : newestFirst Transaction.postDate [t₁, { t₂ with postDate := 1 }] =
      [{ t₂ with postDate := 1 }, t₁] := newestFirst_eq (.swap ..) (by simp [hdate])
  obtain ⟨hone, hsame, -, hexact⟩ := group_reversal_sees_one_store rfl injOn_id hmade (by simp)
    (fun m hm => (hgroup m hm).1) hsorted
    (rfl : service.reverseGroup "G1" _ (fun _ => "R1") store₂.lookup = (_, _))
  obtain ⟨rs, hrs⟩ := (hone "R1").2 fun m hm => by
    obtain ⟨r, -, hr⟩ := exists_of_mapM_eq_ok hreversals hm
    exact ⟨r, congrArg Prod.fst (LedgerService.reverse_eq_reversed.2 ⟨(hgroup m hm).1, hr, rfl⟩)⟩
  obtain ⟨-, -, hcredit, -⟩ := hexact hsides (fun m hm => (hgroup m hm).2.1) hback
  obtain ⟨rs', hrs'⟩ := hcredit
    (fun m hm kind limit e hchecks => (hgroup m hm).2.2 e hchecks.mem hchecks.isBridge) ⟨rs, hrs⟩
  exact ⟨t₁, t₂, store₁, store₂, rs, rs', ht₁, hstore₁, ht₂, hstore₂, hrs, hrs',
    hsame rs rs' hrs hrs'⟩

open SmallLedger in
/-- A payment within its limit is followed by a larger one that has none. Only once the larger one
is taken back, the smaller one can be taken back within its limit. -/
theorem group_reversal_refuses_more :
    ¬∀ (s : LedgerService) (known : Set Account) (chart : Chart)
      (store store₁ store₂ : BalanceStore) (request₁ request₂ : TransactionRequest)
      (t₁ t₂ : Transaction) (date₁ date₂ : Int),
      s.rules = .standard s.currencies → known.InjOn Account.id → chart.Within known →
      store.KeepsSides known → s.create request₁ chart store.lookup = .ok t₁ →
      store.apply t₁ = .ok store₁ → s.create request₂ chart store₁.lookup = .ok t₂ →
      store₁.apply t₂ = .ok store₂ → date₁ < date₂ → t₁.isReversed = false →
      t₂.isReversed = false → ∀ group,
      group = [{ t₁ with postDate := date₁ }, { t₂ with postDate := date₂ }] →
      ((∃ rs, (s.reverseGroup "G1" group (fun _ => "R1") store₂.lookup).1 =
          .ok (.reversed rs)) ↔
        ∃ rs, s.ReversesInTurn store₂ (newestFirst Transaction.postDate group) rs) := by
  intro h
  obtain ⟨t₁, ht₁, hrun⟩ := bind_eq_ok.1 (by decide +kernel : (do
    let t₁ ← service.create { payment 50 with metadata := .ofList [("daily_limit", "100")] }
      chart (∅ : BalanceStore).lookup
    let store₁ ← orOverflow ((∅ : BalanceStore).apply t₁)
    let t₂ ← service.create { payment 200 with metadata := .ofList [] } chart store₁.lookup
    let store₂ ← orOverflow (store₁.apply t₂)
    let r₂ ← service.approve store₂.lookup (reversalDraft { t₂ with postDate := 1 } "R1")
    let store₃ ← orOverflow (store₂.apply r₂)
    let r₁ ← service.approve store₃.lookup (reversalDraft { t₁ with postDate := 0 } "R1")
    let store₄ ← orOverflow (store₃.apply r₁)
    return decide (t₁.isReversed = false ∧ t₂.isReversed = false ∧
      ∀ rs, (groupDrafts [{ t₂ with postDate := 1 }, { t₁ with postDate := 0 }] fun _ => "R1").mapM
        (service.approve store₂.lookup) = .ok rs → False)) = (.ok true : Except Failure Bool))
  obtain ⟨store₁, hstore₁, hrun⟩ := bind_eq_ok.1 hrun
  obtain ⟨t₂, ht₂, hrun⟩ := bind_eq_ok.1 hrun
  obtain ⟨store₂, hstore₂, hrun⟩ := bind_eq_ok.1 hrun
  obtain ⟨r₂, hr₂, hrun⟩ := bind_eq_ok.1 hrun
  obtain ⟨store₃, hstore₃, hrun⟩ := bind_eq_ok.1 hrun
  obtain ⟨r₁, hr₁, hrun⟩ := bind_eq_ok.1 hrun
  obtain ⟨store₄, hstore₄, hrun⟩ := bind_eq_ok.1 hrun
  obtain ⟨hopen₁, hopen₂, hrefused⟩ := of_decide_eq_true (Except.ok.inj hrun)
  rw [orOverflow_eq_ok] at hstore₁ hstore₂ hstore₃ hstore₄
  have hsorted : newestFirst Transaction.postDate
      [{ t₁ with postDate := 0 }, { t₂ with postDate := 1 }] =
        [{ t₂ with postDate := 1 }, { t₁ with postDate := 0 }] :=
    newestFirst_eq (.swap ..) (by simp)
  obtain ⟨rs, hrs⟩ := (h service {a | a ∈ accounts} chart ∅ store₁ store₂ _ _ t₁ t₂ 0 1 rfl
    injOn_id (Chart.within_ofList fun _ ha => ha) .empty ht₁ hstore₁ ht₂ hstore₂ (by decide)
    hopen₁ hopen₂ _ rfl).2 ⟨[r₂, r₁], by
      rw [hsorted]
      exact .cons (LedgerService.reverse_eq_reversed.2 ⟨hopen₂, hr₂, rfl⟩) hstore₃
        (.cons (LedgerService.reverse_eq_reversed.2 ⟨hopen₁, hr₁, rfl⟩) hstore₄ (.nil store₄))⟩
  rw [LedgerService.reverseGroup_of_open (by simp) (by simpa using ⟨hopen₁, hopen₂⟩), hsorted] at hrs
  split at hrs
  · rename_i rs' hrs'
    exact hrefused rs' hrs'
  · cases hrs

end LayeredLedger
