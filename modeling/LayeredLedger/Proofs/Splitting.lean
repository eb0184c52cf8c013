import LayeredLedger.Proofs.GroupReversal

/-!
# Splitting a request

A request for several entries is checked once: the rules look at the store as it is and at what all
the entries come to. If its entries were requested one by one, each would be checked against a
store that has taken the earlier ones. The last entry of a payer is then checked against the same
sum as the whole request, and the earlier ones against less, since usage only grows.

* `TransactionRequest.only`, `TransactionRequest.split`: requests for the entries one by one;
* `LedgerService.CreatesInTurn`: creating them one after the other;
* `BalanceStore.CountsExactly`, `LedgerService.CountsInTurn`: nothing is rounded;
* `build_eq_ok_iff`, `Transaction.IsMadeOf`, `isMadeOf_of_build`: what is built either way;
* `Transaction.Allows`, `create_eq_ok_iff_allows`, `exists_createsInTurn_iff`: what is asked either
  way, in exact numbers;
* `spendsInTurn_iff`, `create_eq_ok_iff_spendsInTurn`: the two ways ask for the same;
* **`request_splits`**: splitting a request does not change the outcome.
-/

namespace LayeredLedger

open BalanceStore (keyOf)

/-! ## One by one -/

namespace TransactionRequest

/-- The request for one entry alone. -/
def only (request : TransactionRequest) (r : EntryRequest) : TransactionRequest :=
  { request with entries := [r] }

/-- The requests for the entries one by one. -/
def split (request : TransactionRequest) : List TransactionRequest :=
  request.entries.map request.only

end TransactionRequest

/-- Requests are created one after the other. Each transaction is posted before the next one is
checked. -/
inductive LedgerService.CreatesInTurn (s : LedgerService) (chart : Chart) :
    BalanceStore → List TransactionRequest → List Transaction → BalanceStore → Prop where
  | nil (store : BalanceStore) : CreatesInTurn s chart store [] [] store
  | cons {store next last : BalanceStore} {request : TransactionRequest} {t : Transaction}
      {rest : List TransactionRequest} {ts : List Transaction}
      (hcreate : s.create request chart store.lookup = .ok t) (happly : store.apply t = .ok next)
      (hrest : CreatesInTurn s chart next rest ts last) :
      CreatesInTurn s chart store (request :: rest) (t :: ts) last

/-- Nothing is rounded on the way of a transaction into a store, and its totals are in range. -/
structure BalanceStore.CountsExactly (store : BalanceStore) (t : Transaction) : Prop where
  totals : ∃ totals, t.entries.foldlM addEntry ∅ = .ok totals
  takes : store.TakesExactly t

instance (store : BalanceStore) (t : Transaction) : Decidable (store.CountsExactly t) :=
  decidable_of_iff ((∃ totals, t.entries.foldlM addEntry ∅ = .ok totals) ∧ store.TakesExactly t)
    ⟨fun ⟨h₁, h₂⟩ => ⟨h₁, h₂⟩, fun h => ⟨h.totals, h.takes⟩⟩

/-- So it is for transactions that are built and posted one after the other. -/
def LedgerService.CountsInTurn (s : LedgerService) (chart : Chart) :
    BalanceStore → List TransactionRequest → Prop
  | _, [] => True
  | store, request :: rest => ∀ t, s.build request chart = .ok t → store.CountsExactly t ∧
      ∀ next, store.apply t = .ok next → CountsInTurn s chart next rest

instance LedgerService.decidableCountsInTurn (s : LedgerService) (chart : Chart) :
    ∀ (store : BalanceStore) (requests : List TransactionRequest),
      Decidable (s.CountsInTurn chart store requests)
  | _, [] => .isTrue trivial
  | _, _ :: rest =>
    have (next : BalanceStore) := decidableCountsInTurn s chart next rest
    inferInstanceAs (Decidable (∀ _, _ → _ ∧ ∀ _, _ → _))

/-! ## What is built -/

/-- The transaction of a request that settles at once, with the legs of its plans. -/
def TransactionRequest.settled (request : TransactionRequest) (journal : JournalId)
    (plans : List EntryPlan) : Transaction :=
  let blank := request.blank journal
  let posted := { blank with entries := (plans.flatMap directLegs).map blank.entryOf }
  (posted.tag ("group:" ++ request.shape.group.name)).tag ("type:" ++ request.shape.type)

theorem strategyFor?_of_not_pending {shape : TransactionShape} (h : shape.pending = false) :
    strategyFor? shape = some .direct := by
  simp [strategyFor?, Strategy.all, Strategy.takes, h]

/-- Direct legs are posted whatever they are, if the amounts of the plans are above zero. -/
theorem foldlM_postPlan_direct {shape : TransactionShape} (hshape : shape.pending = false)
    {plans : List EntryPlan} (hpos : ∀ p ∈ plans, 0 < p.amount) (t : Transaction) :
    plans.foldlM (LedgerService.postPlan shape) t =
      .ok { t with entries := t.entries ++ (plans.flatMap directLegs).map t.entryOf } := by
  induction plans generalizing t with
  | nil => simp [pure, Except.pure]
  | cons p plans ih =>
    have hlegs : ∀ x ∈ directLegs p, 0 < x.amount := fun x hx => by
      have hleg : IsLegOf p Strategy.direct.bands x := Strategy.isLegOf rfl x hx
      rw [hleg.amount]
      exact hpos p (by simp)
    have hpost : LedgerService.postPlan shape t p =
        .ok { t with entries := t.entries ++ (directLegs p).map t.entryOf } :=
      bind_eq_ok.2 ⟨.direct, chooseForEntry_eq_ok.2 (strategyFor?_of_not_pending hshape),
        bind_eq_ok.2 ⟨directLegs p, rfl, Transaction.post_eq_ok.2 ⟨hlegs, rfl⟩⟩⟩
    rw [List.foldlM_cons, hpost]
    refine (ih (fun q hq => hpos q (by simp [hq])) _).trans ?_
    simp only [List.flatMap_cons, List.map_append, List.append_assoc]
    rfl

section Build

variable {s : LedgerService} {chart : Chart} {request : TransactionRequest}
  (hdirect : request.shape.pending = false)

include hdirect

/-- A request that settles at once is built if its accounts are found and its plans pass. -/
theorem build_eq_ok_iff {t : Transaction} : s.build request chart = .ok t ↔
    request.entries ≠ [] ∧ ∃ plans journal, request.entries.mapM (s.plan chart) = .ok plans ∧
      (∀ p ∈ plans, checkPlan request.bounds? p = .ok ()) ∧
      s.journalOf request = .ok journal ∧ request.settled journal plans = t := by
  have hpost : ∀ plans : List EntryPlan, (∀ p ∈ plans, checkPlan request.bounds? p = .ok ()) →
      ∀ journal, plans.foldlM (LedgerService.postPlan request.shape) (request.blank journal) =
        .ok { request.blank journal with
          entries := (plans.flatMap directLegs).map (request.blank journal).entryOf } :=
    fun plans hchecks journal => foldlM_postPlan_direct hdirect
      (fun p hp => (checkPlan_eq_ok (hchecks p hp)).1) (request.blank journal)
  unfold LedgerService.build
  constructor
  · intro h
    split at h
    · cases h
    rename_i hne
    obtain ⟨plans, hplans, h⟩ := bind_eq_ok.1 h
    obtain ⟨_, hchecks, h⟩ := bind_eq_ok.1 h
    obtain ⟨journal, hjournal, h⟩ := bind_eq_ok.1 h
    obtain ⟨posted, hposted, h⟩ := bind_eq_ok.1 h
    have hchecks := forM_eq_ok_iff.1 hchecks
    obtain rfl := Except.ok.inj ((hpost plans hchecks journal).symm.trans hposted)
    exact ⟨by simpa using hne, plans, journal, hplans, hchecks, hjournal, Except.ok.inj h⟩
  · rintro ⟨hne, plans, journal, hplans, hchecks, hjournal, rfl⟩
    rw [if_neg (by simpa using hne)]
    exact bind_eq_ok.2 ⟨plans, hplans, bind_eq_ok.2 ⟨⟨⟩, forM_eq_ok_iff.2 hchecks,
      bind_eq_ok.2 ⟨journal, hjournal, bind_eq_ok.2 ⟨_, hpost plans hchecks journal, rfl⟩⟩⟩⟩

theorem build_only_eq_ok_iff {r : EntryRequest} {m : Transaction} :
    s.build (request.only r) chart = .ok m ↔ ∃ p journal, s.plan chart r = .ok p ∧
      checkPlan request.bounds? p = .ok () ∧ s.journalOf request = .ok journal ∧
      request.settled journal [p] = m := by
  have honly : (request.only r).shape.pending = false := hdirect
  rw [build_eq_ok_iff honly]
  constructor
  · rintro ⟨-, plans, journal, hplans, hchecks, hjournal, rfl⟩
    obtain _ | ⟨hp, ⟨⟩⟩ := mapM_eq_ok_iff.1 hplans
    exact ⟨_, journal, hp, hchecks _ (by simp), hjournal, rfl⟩
  · rintro ⟨p, journal, hp, hcheck, hjournal, rfl⟩
    refine ⟨by simp [TransactionRequest.only], [p], journal, mapM_eq_ok_iff.2 (.cons hp .nil), ?_,
      hjournal, rfl⟩
    intro q hq
    obtain rfl := List.mem_singleton.1 hq
    exact hcheck

/-- The plans of the request, one by one. -/
theorem mapM_build_split {plans : List EntryPlan} {journal : JournalId}
    (hplans : request.entries.mapM (s.plan chart) = .ok plans)
    (hchecks : ∀ p ∈ plans, checkPlan request.bounds? p = .ok ())
    (hjournal : s.journalOf request = .ok journal) :
    request.split.mapM (s.build · chart) = .ok (plans.map fun p => request.settled journal [p]) := by
  rw [mapM_eq_ok_iff] at hplans ⊢
  rw [TransactionRequest.split, List.forall₂_map_left_iff, List.forall₂_map_right_iff]
  generalize request.entries = entries at hplans
  induction hplans with
  | nil => exact .nil
  | @cons r p entries plans hp _ ih =>
    obtain ⟨hcheck, hchecks⟩ := List.forall_mem_cons.1 hchecks
    exact .cons ((build_only_eq_ok_iff hdirect).2 ⟨p, journal, hp, hcheck, hjournal, rfl⟩)
      (ih hchecks)

/-- The request is built if its entries are, one by one. -/
theorem exists_build_iff : (∃ t, s.build request chart = .ok t) ↔
    request.entries ≠ [] ∧ ∃ ms, request.split.mapM (s.build · chart) = .ok ms := by
  constructor
  · rintro ⟨t, ht⟩
    obtain ⟨hne, plans, journal, hplans, hchecks, hjournal, -⟩ := (build_eq_ok_iff hdirect).1 ht
    exact ⟨hne, _, mapM_build_split hdirect hplans hchecks hjournal⟩
  · rintro ⟨hne, hms⟩
    rw [exists_mapM_eq_ok_iff, TransactionRequest.split, List.forall_mem_map] at hms
    have hone : ∀ r ∈ request.entries, ∃ p journal, s.plan chart r = .ok p ∧
        checkPlan request.bounds? p = .ok () ∧ s.journalOf request = .ok journal := by
      intro r hr
      obtain ⟨m, hm⟩ := hms r hr
      obtain ⟨p, journal, hp, hcheck, hjournal, -⟩ := (build_only_eq_ok_iff hdirect).1 hm
      exact ⟨p, journal, hp, hcheck, hjournal⟩
    obtain ⟨plans, hplans⟩ := exists_mapM_eq_ok_iff.2 fun r hr =>
      let ⟨p, _, hp, _⟩ := hone r hr
      ⟨p, hp⟩
    obtain ⟨r, hr⟩ := List.exists_mem_of_ne_nil _ hne
    obtain ⟨-, journal, -, -, hjournal⟩ := hone r hr
    refine ⟨_, (build_eq_ok_iff hdirect).2 ⟨hne, plans, journal, hplans, fun p hp => ?_, hjournal,
      rfl⟩⟩
    obtain ⟨r, hr, hp⟩ := exists_of_mem_mapM hplans hp
    obtain ⟨p', -, hp', hcheck, -⟩ := hone r hr
    obtain rfl := Except.ok.inj (hp.symm.trans hp')
    exact hcheck

/-- Something is moved. -/
theorem entries_ne_nil_of_build {t : Transaction} (h : s.build request chart = .ok t) :
    t.entries ≠ [] := by
  obtain ⟨hne, plans, journal, hplans, -, -, rfl⟩ := (build_eq_ok_iff hdirect).1 h
  obtain ⟨r, hr⟩ := List.exists_mem_of_ne_nil _ hne
  obtain ⟨p, hp, -⟩ := exists_of_mapM_eq_ok hplans hr
  have hleg : .debit p.debit p.amount (p.layer .base) p.request.detail ∈
      plans.flatMap directLegs :=
    List.mem_flatMap.2 ⟨p, hp, by simp [directLegs, transferLegs]⟩
  exact List.ne_nil_of_mem (List.mem_map_of_mem hleg)

end Build

/-- The transaction has the entries of others, one after the other. They are in its journal and
have its tags. -/
structure Transaction.IsMadeOf (t : Transaction) (ms : List Transaction) : Prop where
  entries : t.entries = ms.flatMap Transaction.entries
  journal : ∀ m ∈ ms, m.journal = t.journal
  tags : ∀ m ∈ ms, m.tags = t.tags

theorem isMadeOf_of_build {s : LedgerService} {chart : Chart} {request : TransactionRequest}
    (hdirect : request.shape.pending = false) {t : Transaction} {ms : List Transaction}
    (ht : s.build request chart = .ok t)
    (hms : request.split.mapM (s.build · chart) = .ok ms) : t.IsMadeOf ms := by
  obtain ⟨-, plans, journal, hplans, hchecks, hjournal, rfl⟩ := (build_eq_ok_iff hdirect).1 ht
  obtain rfl := Except.ok.inj
    ((mapM_build_split hdirect hplans hchecks hjournal).symm.trans hms)
  refine ⟨?_, ?_, ?_⟩
  · change (plans.flatMap directLegs).map _ = _
    rw [List.map_flatMap, List.flatMap_map]
    refine List.flatMap_congr fun p _ => ?_
    change _ = ([p].flatMap directLegs).map _
    rw [List.flatMap_singleton]
  · simp only [List.forall_mem_map]
    exact fun _ _ => rfl
  · simp only [List.forall_mem_map]
    exact fun _ _ => rfl

/-! ## What is asked -/

/-- The nets are within the limits of a transaction. -/
def Transaction.Allows (m : Transaction) (nets : BalanceKey → Int) : Prop :=
  ∀ kind limit e, m.Checks kind limit e →
    e.account.side.oriented (nets (keyOf m.journal e)) ≤ limit.units

/-- The nets are within the limits of each transaction once it and those before it are posted. -/
def SpendsInTurn (nets : BalanceKey → Int) : List Transaction → Prop
  | [] => True
  | m :: rest => m.Allows (nets + m.netAt) ∧ SpendsInTurn (nets + m.netAt) rest

section Asked

variable {s : LedgerService} (hrules : s.rules = .standard s.currencies) {known : Set Account}
  (hknown : known.InjOn Account.id) {chart : Chart} (hchart : chart.Within known)
  {store : BalanceStore} (hsides : store.KeepsSides known)

include hrules hknown hchart hsides

/-- Without rounding, what is built is created if its tags can be read and the nets that it leads
to are within its limits. -/
theorem create_eq_ok_iff_allows {request : TransactionRequest} {t : Transaction}
    (hbuilt : s.build request chart = .ok t) (hne : t.entries ≠ [])
    (hexact : store.CountsExactly t) : s.create request chart store.lookup = .ok t ↔
      (∃ tags, s.rules.tagsFor t = .ok tags) ∧ t.Allows (store.netAt + t.netAt) := by
  obtain ⟨_, _, hd⟩ := exists_isDraft hbuilt
  obtain ⟨totals, htotals⟩ := hexact.totals
  have hvalid : validate t.entries = .ok () := by
    rw [validate_of_sidesMatch hne (fun _ he => hd.pos he) hd.sidesMatch, htotals]
    rfl
  rw [LedgerService.create_eq_ok, and_iff_right hbuilt, and_iff_right hvalid, hrules,
    evaluate_standard_iff hknown (hd.within hchart) hd.sidesMatch htotals]
  refine and_congr_right fun _ => ?_
  have hone : ∀ {kind limit e}, t.Checks kind limit e →
      ((∃ p, kind.UsageWithin store.lookup t e.account limit p) ↔
        e.account.side.oriented ((store.netAt + t.netAt) (keyOf t.journal e)) ≤ limit.units) :=
    fun hchecks => hexact.takes.exists_usageWithin_iff hknown hsides (hd.within hchart)
      hchecks.mem hchecks.layer
  constructor
  · intro hlimits kind limit e hchecks
    have hcounts := (hd.counts_iff hchecks.mem).2 ⟨hchecks.layer, hchecks.isBridge⟩
    exact (hone hchecks).1 (hlimits kind limit hchecks.sets e hchecks.mem hcounts)
  · intro hallows kind limit hlimit e he hcounts
    obtain ⟨hlayer, hbridge⟩ := (hd.counts_iff he).1 hcounts
    have hchecks : t.Checks kind limit e := ⟨hlimit, he, hlayer, hbridge⟩
    exact (hone hchecks).2 (hallows kind limit e hchecks)

/-- In turn, the nets that are looked at move on. -/
theorem exists_createsInTurn_iff {requests : List TransactionRequest}
    (hentries : ∀ request ∈ requests, ∀ t, s.build request chart = .ok t → t.entries ≠ [])
    (hexact : s.CountsInTurn chart store requests) :
    (∃ ts last, s.CreatesInTurn chart store requests ts last) ↔
      ∃ ms, requests.mapM (s.build · chart) = .ok ms ∧
        (∀ m ∈ ms, ∃ tags, s.rules.tagsFor m = .ok tags) ∧ SpendsInTurn store.netAt ms := by
  induction requests generalizing store with
  | nil => exact ⟨fun _ => ⟨[], rfl, by simp, trivial⟩, fun _ => ⟨[], store, .nil store⟩⟩
  | cons request rest ih =>
    obtain ⟨hfirst, hentries⟩ := List.forall_mem_cons.1 hentries
    -- what holds of the first request if it is built
    have hstep : ∀ m, s.build request chart = .ok m → ∃ next, store.apply m = .ok next ∧
        next.netAt = store.netAt + m.netAt ∧ next.KeepsSides known ∧
        s.CountsInTurn chart next rest := by
      intro m hm
      obtain ⟨hcounts, hnext⟩ := hexact m hm
      obtain ⟨_, _, hd⟩ := exists_isDraft hm
      obtain ⟨next, happly⟩ := hcounts.takes.exists_apply
      exact ⟨next, happly, funext (BalanceStore.netAt_apply happly hcounts.takes.posts),
        hsides.apply hknown (hd.within hchart) happly, hnext next happly⟩
    have hcreate : ∀ m, s.build request chart = .ok m → _ := fun m hm =>
      create_eq_ok_iff_allows hrules hknown hchart hsides hm (hfirst m hm) (hexact m hm).1
    constructor
    · rintro ⟨_, last, _ | ⟨hcreated, happly, hrest⟩⟩
      rename_i next m ts
      have hm := (LedgerService.create_eq_ok.1 hcreated).1
      obtain ⟨next', happly', hnets, hsides', hexact'⟩ := hstep m hm
      obtain rfl := Except.ok.inj (happly'.symm.trans happly)
      obtain ⟨ms, hms, htags, hspends⟩ := (ih hsides' hentries hexact').1 ⟨ts, last, hrest⟩
      obtain ⟨hread, hallows⟩ := (hcreate m hm).1 hcreated
      exact ⟨m :: ms, mapM_eq_ok_iff.2 (.cons hm (mapM_eq_ok_iff.1 hms)),
        List.forall_mem_cons.2 ⟨hread, htags⟩, hallows, hnets ▸ hspends⟩
    · rintro ⟨ms, hms, htags, hspends⟩
      obtain _ | @⟨_, m, _, ms, hm, hbuilt⟩ := mapM_eq_ok_iff.1 hms
      obtain ⟨hread, htags⟩ := List.forall_mem_cons.1 htags
      obtain ⟨next, happly, hnets, hsides', hexact'⟩ := hstep m hm
      obtain ⟨ts, last, hrest⟩ := (ih hsides' hentries hexact').2
        ⟨ms, mapM_eq_ok_iff.2 hbuilt, htags, hnets ▸ hspends.2⟩
      exact ⟨m :: ts, last, .cons ((hcreate m hm).2 ⟨hread, hspends.1⟩) happly hrest⟩

end Asked

/-! ## The same in the end -/

theorem Transaction.exists_of_netAt_ne_zero {m : Transaction} {key : BalanceKey}
    (h : m.netAt key ≠ 0) : ∃ e ∈ m.entries, keyOf m.journal e = key := by
  unfold netAt at h
  split at h
  · rename_i hjournal
    obtain ⟨p, hp, hid, hlayer⟩ := exists_of_net_ne_zero _ _ h
    obtain ⟨e, he, rfl⟩ := List.mem_map.1 hp
    exact ⟨e, he, (BalanceKey.eq_keyOf.2 ⟨hjournal, of_decide_eq_true hid, hlayer⟩).symm⟩
  · exact absurd rfl h

/-- The transaction is one of several in a journal that have the same tags, credit usage to
accounts that grow by credits, and post nothing else on their limit layers. -/
structure Transaction.IsPayment (known : Set Account) (journal : JournalId) (tags : Tags)
    (m : Transaction) : Prop where
  journal_eq : m.journal = journal
  tags_eq : m.tags = tags
  within : m.Within known
  credit : ∀ kind limit e, m.Checks kind limit e → e.account.side = .credit
  nonpos : ∀ a ∈ known, a.isBridge = false → ∀ kind : LimitKind,
    m.netAt ⟨journal, a.id, kind.usageLayer a⟩ ≤ 0

section Payments

variable {known : Set Account} (hknown : known.InjOn Account.id) {journal : JournalId} {tags : Tags}
  {m : Transaction} {rest : List Transaction} (hm : m.IsPayment known journal tags)
  (hrest : ∀ x ∈ rest, x.IsPayment known journal tags)

include hknown hm hrest

/-- What later payments add is nothing, or it is checked with them. -/
theorem allows_add_sum_iff {nets : BalanceKey → Int}
    (hlater : ∀ x ∈ rest, x.Allows (nets + (rest.map Transaction.netAt).sum)) :
    m.Allows nets ↔ m.Allows (nets + (rest.map Transaction.netAt).sum) := by
  have hsum : ∀ key, (rest.map Transaction.netAt).sum key =
      (rest.map fun x => x.netAt key).sum := fun key => by
    rw [Pi.list_sum_apply, List.map_map]
    rfl
  refine forall₄_congr fun kind limit e hchecks => ?_
  have hkey : keyOf m.journal e = ⟨journal, e.account.id, kind.usageLayer e.account⟩ := by
    rw [BalanceStore.keyOf, hm.journal_eq, hchecks.layer]
  have hmem := hm.within e hchecks.mem
  have hcredit := hm.credit kind limit e hchecks
  rw [Pi.add_apply, hcredit, Side.oriented, Side.oriented]
  constructor
  · intro hle
    by_cases hzero : ∀ x ∈ rest, x.netAt (keyOf m.journal e) = 0
    · have hnone : (rest.map fun x => x.netAt (keyOf m.journal e)).sum = 0 :=
        List.sum_eq_zero (by simpa using hzero)
      rw [hsum, hnone]
      omega
    · -- a later payment posts at the key, and its own check covers this one
      push Not at hzero
      obtain ⟨x, hx, hne⟩ := hzero
      obtain ⟨e', he', hsame⟩ := Transaction.exists_of_netAt_ne_zero hne
      have hpayment := hrest x hx
      have hid : e'.account.id = e.account.id := congrArg BalanceKey.account hsame
      have haccount : e'.account = e.account := hknown (hpayment.within e' he') hmem hid
      have hlayer : e'.layer = kind.usageLayer e'.account := by
        rw [haccount, ← hchecks.layer]
        exact congrArg BalanceKey.layer hsame
      have hsets : x.SetsLimit kind limit := by
        have hlimit := hchecks.sets
        unfold Transaction.SetsLimit at hlimit ⊢
        rwa [hpayment.tags_eq, ← hm.tags_eq]
      have hcovers := hlater x hx kind limit e'
        ⟨hsets, he', hlayer, by rw [haccount, hchecks.isBridge]⟩
      rwa [hsame, haccount, hcredit, Side.oriented, Pi.add_apply] at hcovers
  · intro hle
    have hnonpos : (rest.map Transaction.netAt).sum (keyOf m.journal e) ≤ 0 := by
      have heach : ∀ n ∈ rest.map fun x => x.netAt (keyOf m.journal e), n ≤ 0 := by
        rw [List.forall_mem_map, hkey]
        exact fun x hx => (hrest x hx).nonpos _ hmem hchecks.isBridge kind
      rw [hsum]
      simpa using List.sum_le_card_nsmul _ 0 heach
    omega

omit hm hrest in
/-- **In turn and all at once the limits ask for the same.** -/
theorem spendsInTurn_iff {ms : List Transaction}
    (hms : ∀ m ∈ ms, m.IsPayment known journal tags) {nets : BalanceKey → Int} :
    SpendsInTurn nets ms ↔ ∀ m ∈ ms, m.Allows (nets + (ms.map Transaction.netAt).sum) := by
  induction ms generalizing nets with
  | nil => simp [SpendsInTurn]
  | cons m rest ih =>
    obtain ⟨hm, hrest⟩ := List.forall_mem_cons.1 hms
    rw [SpendsInTurn, ih hrest, List.map_cons, List.sum_cons, ← add_assoc, List.forall_mem_cons]
    exact and_congr_left fun hlater => allows_add_sum_iff hknown hm hrest hlater

end Payments

namespace Transaction.IsMadeOf

variable {t : Transaction} {ms : List Transaction} (h : t.IsMadeOf ms)

include h

theorem netAt_eq : t.netAt = (ms.map netAt).sum := by
  have hjournal := h.journal
  funext key
  rw [Pi.list_sum_apply, List.map_map, netAt, postings, h.entries, List.map_flatMap, net_flatMap]
  split
  · rename_i hkey
    refine congrArg List.sum (List.map_congr_left fun m hm => ?_)
    rw [Function.comp_apply, netAt, if_pos ((hjournal m hm).trans hkey)]
    rfl
  · rename_i hkey
    refine (List.sum_eq_zero ?_).symm
    rw [List.forall_mem_map]
    exact fun m hm => if_neg fun hsame => hkey ((hjournal m hm).symm.trans hsame)

/-- Limits of the whole are limits of the parts. -/
theorem allows_iff {nets : BalanceKey → Int} : t.Allows nets ↔ ∀ m ∈ ms, m.Allows nets := by
  have hsets : ∀ m ∈ ms, ∀ (kind : LimitKind) limit, m.SetsLimit kind limit ↔
      t.SetsLimit kind limit := fun m hm kind limit => by
    rw [SetsLimit, SetsLimit, h.tags m hm]
  constructor
  · rintro hallows m hm kind limit e ⟨hlimit, he, hlayer, hbridge⟩
    have hmem : e ∈ t.entries := h.entries ▸ List.mem_flatMap.2 ⟨m, hm, he⟩
    rw [h.journal m hm]
    exact hallows kind limit e ⟨(hsets m hm kind limit).1 hlimit, hmem, hlayer, hbridge⟩
  · rintro hallows kind limit e ⟨hlimit, he, hlayer, hbridge⟩
    obtain ⟨m, hm, he⟩ := List.mem_flatMap.1 (h.entries ▸ he)
    rw [← h.journal m hm]
    exact hallows m hm kind limit e ⟨(hsets m hm kind limit).2 hlimit, he, hlayer, hbridge⟩

/-- Posting the whole is posting the parts one after the other. -/
theorem apply_eq (store : BalanceStore) : store.apply t = ms.foldlM BalanceStore.apply store := by
  have hjournal := h.journal
  unfold BalanceStore.apply
  rw [h.entries]
  generalize t.journal = journal at hjournal
  clear h
  induction ms generalizing store with
  | nil => rfl
  | cons m ms ih =>
    obtain ⟨hm, hms⟩ := List.forall_mem_cons.1 hjournal
    rw [List.flatMap_cons, List.foldlM_append, List.foldlM_cons, hm]
    exact bind_congr fun next => ih next hms

end Transaction.IsMadeOf

/-- Each part of a request that settles at once is a payment, if payers grow by credits. -/
theorem isPayment_of_build {s : LedgerService} {known : Set Account}
    (hknown : known.InjOn Account.id) {chart : Chart} (hchart : chart.Within known)
    {request : TransactionRequest}
    (hpayers : ∀ r ∈ request.entries, ∀ a, chart.finalAccount r.debit = .ok a →
      a.side = .credit ∨ a.isBridge = true) {r : EntryRequest} (hr : r ∈ request.entries)
    {m : Transaction} (hbuilt : s.build (request.only r) chart = .ok m) :
    m.IsPayment known m.journal m.tags := by
  obtain ⟨strategy, plans, hd⟩ := exists_isDraft hbuilt
  refine ⟨rfl, rfl, hd.within hchart, ?_, fun a ha hbridge kind =>
    hd.netAt_nonpos hknown hchart ha hbridge m.journal kind⟩
  rintro kind limit e ⟨-, he, hlayer, hbridge⟩
  have hband : e.layer.isInBand kind.band = true := by
    rw [hlayer, LimitKind.usageLayer, Layer.isInBand_of]
    exact decide_eq_true rfl
  obtain ⟨⟨p, hp, haccount⟩, -⟩ := (hd.isBridge_or_payer he hband).resolve_left (by simp [hbridge])
  have hrequest : p.request = r := by
    have hmem : p.request ∈ plans.map EntryPlan.request := List.mem_map_of_mem hp
    rw [hd.requests] at hmem
    exact List.mem_singleton.1 hmem
  have hdebit := (hd.plan p hp).debit
  rw [hrequest, ← haccount] at hdebit
  exact (hpayers r hr _ hdebit).resolve_right (by simp [hbridge])

theorem LedgerService.CreatesInTurn.spec {s : LedgerService} {chart : Chart}
    {store last : BalanceStore} {requests : List TransactionRequest} {ts : List Transaction}
    (h : s.CreatesInTurn chart store requests ts last) :
    requests.mapM (s.build · chart) = .ok ts ∧ ts.foldlM BalanceStore.apply store = .ok last := by
  induction h with
  | nil => exact ⟨rfl, rfl⟩
  | cons hcreate happly _ ih =>
    obtain ⟨hbuilt, hposted⟩ := ih
    rw [mapM_eq_ok_iff] at hbuilt ⊢
    refine ⟨.cons (create_eq_ok.1 hcreate).1 hbuilt, ?_⟩
    rw [List.foldlM_cons]
    exact bind_eq_ok.2 ⟨_, happly, hposted⟩

section Splitting

variable {s : LedgerService} (hrules : s.rules = .standard s.currencies) {known : Set Account}
  (hknown : known.InjOn Account.id) {chart : Chart} (hchart : chart.Within known)
  {store : BalanceStore} (hsides : store.KeepsSides known) {request : TransactionRequest}
  (hdirect : request.shape.pending = false)
  (hpayers : ∀ r ∈ request.entries, ∀ a, chart.finalAccount r.debit = .ok a →
    a.side = .credit ∨ a.isBridge = true)

include hrules hknown hchart hsides hdirect hpayers

/-- What is asked of the whole is what is asked of the parts in turn. -/
theorem create_eq_ok_iff_spendsInTurn {t : Transaction} {ms : List Transaction}
    (ht : s.build request chart = .ok t) (hms : request.split.mapM (s.build · chart) = .ok ms)
    (hexact : store.CountsExactly t) : s.create request chart store.lookup = .ok t ↔
      (∀ m ∈ ms, ∃ tags, s.rules.tagsFor m = .ok tags) ∧ SpendsInTurn store.netAt ms := by
  have hparts := isMadeOf_of_build hdirect ht hms
  have hne := entries_ne_nil_of_build hdirect ht
  have hpayments : ∀ m ∈ ms, m.IsPayment known t.journal t.tags := fun m hm => by
    obtain ⟨x, hx, hbuilt⟩ := exists_of_mem_mapM hms hm
    obtain ⟨r, hr, rfl⟩ := List.mem_map.1 hx
    have hpayment := isPayment_of_build hknown hchart hpayers hr hbuilt
    rwa [hparts.journal m hm, hparts.tags m hm] at hpayment
  have htags : (∃ tags, s.rules.tagsFor t = .ok tags) ↔
      ∀ m ∈ ms, ∃ tags, s.rules.tagsFor m = .ok tags := by
    have hread : ∀ m ∈ ms, s.rules.tagsFor m = s.rules.tagsFor t := fun m hm => by
      rw [RuleEngine.tagsFor, RuleEngine.tagsFor, hparts.tags m hm]
    constructor
    · intro h m hm
      rwa [hread m hm]
    · intro h
      rw [hparts.entries, Ne, List.flatMap_eq_nil_iff] at hne
      push Not at hne
      obtain ⟨m, hm, -⟩ := hne
      exact hread m hm ▸ h m hm
  rw [create_eq_ok_iff_allows hrules hknown hchart hsides ht hne hexact, htags, hparts.allows_iff,
    hparts.netAt_eq, spendsInTurn_iff hknown hpayments]

end Splitting

/-! ## The main result -/

/-- **Splitting a request does not change the outcome.** Take a service with the standard rules
and a request that settles at once, whose payers are bridges or grow by credits. Without rounding
it is created if and only if it has entries and the requests for them one by one are created in
turn, each posted before the next. Then the transaction has the entries of theirs, and the store
that it leads to is the one that they lead to. -/
theorem request_splits {s : LedgerService} (hrules : s.rules = .standard s.currencies)
    {known : Set Account} (hknown : known.InjOn Account.id) {chart : Chart}
    (hchart : chart.Within known) {store : BalanceStore} (hsides : store.KeepsSides known)
    {request : TransactionRequest} (hdirect : request.shape.pending = false)
    (hpayers : ∀ r ∈ request.entries, ∀ a, chart.finalAccount r.debit = .ok a →
      a.side = .credit ∨ a.isBridge = true)
    (hwhole : ∀ t, s.build request chart = .ok t → store.CountsExactly t)
    (hturn : s.CountsInTurn chart store request.split) :
    ((∃ t, s.create request chart store.lookup = .ok t) ↔ request.entries ≠ [] ∧
      ∃ ts last, s.CreatesInTurn chart store request.split ts last) ∧
    ∀ t ts last, s.create request chart store.lookup = .ok t →
      s.CreatesInTurn chart store request.split ts last →
      store.apply t = .ok last ∧ t.entries = ts.flatMap Transaction.entries := by
  have hentries : ∀ x ∈ request.split, ∀ t, s.build x chart = .ok t → t.entries ≠ [] := by
    simp only [TransactionRequest.split, List.forall_mem_map]
    intro r _ t ht
    have honly : (request.only r).shape.pending = false := hdirect
    exact entries_ne_nil_of_build honly ht
  have hinturn := exists_createsInTurn_iff hrules hknown hchart hsides hentries hturn
  refine ⟨⟨?_, ?_⟩, ?_⟩
  · rintro ⟨t, hcreate⟩
    have ht := (LedgerService.create_eq_ok.1 hcreate).1
    obtain ⟨hne, ms, hms⟩ := (exists_build_iff hdirect).1 ⟨t, ht⟩
    have hasked := (create_eq_ok_iff_spendsInTurn hrules hknown hchart hsides hdirect hpayers ht
      hms (hwhole t ht)).1 hcreate
    exact ⟨hne, hinturn.2 ⟨ms, hms, hasked⟩⟩
  · rintro ⟨hne, hcreates⟩
    obtain ⟨ms, hms, hasked⟩ := hinturn.1 hcreates
    obtain ⟨t, ht⟩ := (exists_build_iff hdirect).2 ⟨hne, ms, hms⟩
    exact ⟨t, (create_eq_ok_iff_spendsInTurn hrules hknown hchart hsides hdirect hpayers ht hms
      (hwhole t ht)).2 hasked⟩
  · intro t ts last hcreate hcreates
    obtain ⟨hts, hposted⟩ := hcreates.spec
    have hparts := isMadeOf_of_build hdirect (LedgerService.create_eq_ok.1 hcreate).1 hts
    exact ⟨(hparts.apply_eq store).trans hposted, hparts.entries⟩

open SmallLedger in
/-- A payment to two recipients with a fee, by somebody who has used ten dollars of the limit
before. -/
theorem request_splits_smallLedger : ∃ request t ts last,
    request.entries.length = 3 ∧ service.create request chart usedTen.lookup = .ok t ∧
    service.CreatesInTurn chart usedTen request.split ts last ∧ usedTen.apply t = .ok last := by
  let payments : TransactionRequest := request false .p2p
    [entry .amount payer wallet 40, entry .fee payer wallet 5, entry .amount payer merchant 50]
  obtain ⟨t, ht, hrun⟩ := bind_eq_ok.1 (by decide +kernel : (do
    let t ← service.create payments chart usedTen.lookup
    return decide ((∀ r ∈ payments.entries, ∀ a, chart.finalAccount r.debit = .ok a →
        a.side = .credit ∨ a.isBridge = true) ∧
      (∀ t, service.build payments chart = .ok t → usedTen.CountsExactly t) ∧
      service.CountsInTurn chart usedTen payments.split)) = (.ok true : Except Failure Bool))
  obtain ⟨hpayers, hwhole, hturn⟩ := of_decide_eq_true (Except.ok.inj hrun)
  have hsides : usedTen.KeepsSides {a | a ∈ accounts} :=
    BalanceStore.KeepsSides.empty.set injOn_id (by simp [accounts]) _ _ _
  obtain ⟨hiff, hsame⟩ := request_splits rfl injOn_id (Chart.within_ofList fun _ ha => ha) hsides
    (rfl : payments.shape.pending = false) hpayers hwhole hturn
  obtain ⟨-, ts, last, hcreates⟩ := hiff.1 ⟨t, ht⟩
  exact ⟨payments, t, ts, last, rfl, ht, hcreates, (hsame t ts last ht hcreates).1⟩

end LayeredLedger
