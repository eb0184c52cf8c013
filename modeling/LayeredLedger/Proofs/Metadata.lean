import LayeredLedger.Proofs.Unwinding

/-!
# What metadata can decide

The metadata of a request become tags of the transaction and of all its entries. A completion
reads some of these tags back to learn who is paid. So two transactions that differ only in their
metadata have the same entries except for tags, but they are completed alike only if the metadata
leave the tags alone that a completion reads.

* `Entry.untagged`, `Transaction.Alike`: the same entries except for tags;
* `SameOutcome`, `Completion.Alike`: the same result except for tags;
* `IsDraft.alike`: metadata decide nothing about the entries of a created transaction;
* `Transaction.ReadsAlike`, `IsDraft.readsAlike`: a completion reads the same;
* `LedgerService.completionDraft_alike`, `LedgerService.complete_alike`: it does the same;
* **`metadata_decide_nothing`**: metadata that leave the reserved keys alone decide nothing;
* `metadata_route_money`: other metadata decide who is paid.
-/

namespace LayeredLedger

/-! ## The same except for tags -/

/-- The entry without its tags. -/
def Entry.untagged (e : Entry) : Entry := { e with tags := ∅ }

/-- The transactions are in one journal, and have the same entries in the same order, except for
tags. -/
structure Transaction.Alike (t u : Transaction) : Prop where
  journal : t.journal = u.journal
  entries : t.entries.map Entry.untagged = u.entries.map Entry.untagged

instance (t u : Transaction) : Decidable (t.Alike u) :=
  decidable_of_iff (t.journal = u.journal ∧
      t.entries.map Entry.untagged = u.entries.map Entry.untagged)
    ⟨fun ⟨hjournal, hentries⟩ => ⟨hjournal, hentries⟩, fun h => ⟨h.journal, h.entries⟩⟩

/-- Both fail in the same way, or both have results that are related. -/
inductive SameOutcome {ε α : Type} (R : α → α → Prop) : Except ε α → Except ε α → Prop where
  | error (e : ε) : SameOutcome R (.error e) (.error e)
  | ok {a b : α} (h : R a b) : SameOutcome R (.ok a) (.ok b)

namespace SameOutcome

variable {ε α β : Type} {R : α → α → Prop} {R' : β → β → Prop}

theorem refl (hR : ∀ a, R a a) : ∀ x : Except ε α, SameOutcome R x x
  | .error e => .error e
  | .ok a => .ok (hR a)

/-- Steps that have the same outcome on related results. -/
theorem bind {x y : Except ε α} (h : SameOutcome R x y) {f g : α → Except ε β}
    (hfg : ∀ a b, R a b → SameOutcome R' (f a) (g b)) : SameOutcome R' (x >>= f) (y >>= g) := by
  cases h with
  | error e => exact .error e
  | ok hab => exact hfg _ _ hab

theorem orError {x y : Except LedgerError α} (h : SameOutcome R x y) :
    SameOutcome R (orError x) (LayeredLedger.orError y) := by
  cases h with
  | error e => exact .error _
  | ok hab => exact .ok hab

end SameOutcome

/-- Nothing is done, or the transactions that complete are alike. -/
inductive Completion.Alike : Completion → Completion → Prop where
  | alreadyCompleted : Alike .alreadyCompleted .alreadyCompleted
  | completed {c d : Transaction} (h : c.Alike d) : Alike (.completed c) (.completed d)

/-! ## What does not look at tags -/

theorem validate_untagged (entries : List Entry) :
    validate (entries.map Entry.untagged) = validate entries := by
  unfold validate
  rw [List.isEmpty_map, List.foldlM_map]
  rfl

namespace Transaction.Alike

variable {t u : Transaction} (h : t.Alike u)

include h

theorem validate_eq : validate t.entries = validate u.entries := by
  rw [← validate_untagged, h.entries, validate_untagged]

theorem touches_eq (band : Band) : t.touches band = u.touches band := by
  have huntagged : ∀ t : Transaction, t.touches band =
      (t.entries.map Entry.untagged).any fun e => e.layer.isInBand band := fun t => by
    rw [List.any_map]
    rfl
  rw [huntagged, huntagged, h.entries]

theorem baseLayersOf_eq (s : LedgerService) : s.baseLayersOf t = s.baseLayersOf u := by
  have huntagged : ∀ t : Transaction, s.baseLayersOf t =
      (t.entries.map Entry.untagged).mapM s.baseLayerFor := fun t => by
    rw [List.mapM_map]
    rfl
  rw [huntagged, huntagged, h.entries]

theorem unwindSpecs_eq (layers : BaseLayers) : unwindSpecs t layers = unwindSpecs u layers := by
  have huntagged : ∀ t : Transaction, unwindSpecs t layers =
      ((t.entries.map Entry.untagged).filter fun e => decide (e.layer ∈ unwoundLayers layers)).map
        Transaction.reversalSpec := fun t => by
    rw [List.filter_map, List.map_map]
    rfl
  rw [huntagged, huntagged, h.entries]

theorem findAccount?_eq (code : String) : findAccount? t code = findAccount? u code := by
  have huntagged : ∀ t : Transaction, findAccount? t code =
      ((t.entries.map Entry.untagged).find? (·.account.code = code)).map Entry.account :=
    fun t => by
      rw [List.find?_map, Option.map_map]
      rfl
  rw [huntagged, huntagged, h.entries]

theorem findLiabilityBridge?_eq (currency : CurrencyCode) :
    findLiabilityBridge? t currency = findLiabilityBridge? u currency := by
  have huntagged : ∀ t : Transaction, findLiabilityBridge? t currency =
      ((t.entries.map Entry.untagged).find? fun e =>
        e.account.kind = .bridge .liability ∧ e.account.currency = currency).map Entry.account :=
    fun t => by
      rw [List.find?_map, Option.map_map]
      rfl
  rw [huntagged, huntagged, h.entries]

end Transaction.Alike

/-! ## What a completion reads -/

/-- The entries are the same, and so is what a completion reads from their tags. -/
structure Entry.ReadsAlike (e e' : Entry) : Prop where
  untagged : e.untagged = e'.untagged
  tags : ∀ key ∈ reservedKeys, e.tags.get? key = e'.tags.get? key

/-- A completion reads the same from both transactions. -/
structure Transaction.ReadsAlike (t u : Transaction) : Prop where
  journal : t.journal = u.journal
  detail : t.detail = u.detail
  tags : ∀ key ∈ reservedKeys, t.tags.get? key = u.tags.get? key
  entries : List.Forall₂ Entry.ReadsAlike t.entries u.entries

/-- Steps that do the same to related things give the same list. -/
theorem mapM_congr_of_forall₂ {ε α β : Type} {R : α → α → Prop} {f g : α → Except ε β}
    {l l' : List α} (h : List.Forall₂ R l l') (hfg : ∀ x y, R x y → f x = g y) :
    l.mapM f = l'.mapM g := by
  induction h with
  | nil => rfl
  | cons hxy _ ih => rw [List.mapM_cons, List.mapM_cons, hfg _ _ hxy, ih]

namespace Transaction.ReadsAlike

variable {t u : Transaction} (h : t.ReadsAlike u)

include h

theorem alike : t.Alike u where
  journal := h.journal
  entries := by
    rw [← List.forall₂_eq_eq_eq, List.forall₂_map_left_iff, List.forall₂_map_right_iff]
    exact h.entries.imp fun _ _ he => he.untagged

theorem shape_eq : t.shape = u.shape := by
  have hrequired : ∀ key : TagKey, key.name ∈ reservedKeys →
      requiredTag t key = requiredTag u key := fun key hkey => by
    rw [requiredTag, requiredTag, h.tags _ hkey, h.detail]
  rw [Transaction.shape, Transaction.shape, hrequired .group (by decide),
    hrequired .type (by decide), h.alike.touches_eq]

variable {e e' : Entry} (he : e.ReadsAlike e') (layers : BaseLayers)

include he

theorem payOut_eq : payOut t layers e = payOut u layers e' := by
  obtain ⟨account, side, amount, layer, detail, tags⟩ := e
  obtain ⟨account', side', amount', layer', detail', tags'⟩ := e'
  obtain ⟨rfl, rfl, rfl, rfl, rfl, -⟩ := Entry.mk.inj he.untagged
  have hcredit := he.tags "credit" (by decide)
  simp only at hcredit
  simp only [payOut, recipient, baseLayerOf, hcredit, h.alike.findAccount?_eq]

theorem collect_eq : collect t layers e = collect u layers e' := by
  obtain ⟨account, side, amount, layer, detail, tags⟩ := e
  obtain ⟨account', side', amount', layer', detail', tags'⟩ := e'
  obtain ⟨rfl, rfl, rfl, rfl, rfl, -⟩ := Entry.mk.inj he.untagged
  have hdebit := he.tags "debit" (by decide)
  simp only at hdebit
  simp only [collect, recipient, settlingBridge, baseLayerOf, hdebit, h.alike.findAccount?_eq,
    h.alike.findLiabilityBridge?_eq]

theorem settleLeg_eq : settleLeg t layers e = settleLeg u layers e' := by
  obtain ⟨account, side, amount, layer, detail, tags⟩ := e
  obtain ⟨account', side', amount', layer', detail', tags'⟩ := e'
  obtain ⟨rfl, rfl, rfl, rfl, rfl, -⟩ := Entry.mk.inj he.untagged
  have hcredit := he.tags "credit" (by decide)
  have hdebit := he.tags "debit" (by decide)
  have htype := he.tags "type" (by decide)
  simp only at hcredit hdebit htype
  simp only [settleLeg, baseLayerOf, hcredit, hdebit, htype, h.detail, h.alike.findAccount?_eq]
  rfl

omit he

/-- The same is settled. -/
theorem settlement_eq (strategy : Strategy) :
    strategy.settlement t layers = strategy.settlement u layers := by
  have hunwind := h.alike.unwindSpecs_eq layers
  cases strategy with
  | direct => simp only [Strategy.settlement, h.detail]
  | pendingInbound =>
    have hpaid := mapM_congr_of_forall₂ h.entries fun _ _ he => h.payOut_eq he layers
    have hcollected := mapM_congr_of_forall₂ h.entries fun _ _ he => h.collect_eq he layers
    simp only [Strategy.settlement, inboundSettlement, hunwind, hpaid, hcollected]
  | pendingBillPayment =>
    have hsettled := mapM_congr_of_forall₂ h.entries fun _ _ he => h.settleLeg_eq he layers
    simp only [Strategy.settlement, billSettlement, hunwind, hsettled]

end Transaction.ReadsAlike

/-! ## What a completion does -/

/-- The same specs become the same entries, except for tags. -/
theorem Transaction.post_alike {t u : Transaction} (h : t.Alike u) (specs : List EntrySpec) :
    SameOutcome Alike (t.post specs) (u.post specs) := by
  unfold post
  cases checkAmounts specs with
  | error e => exact .error e
  | ok _ =>
    refine .ok ⟨h.journal, ?_⟩
    rw [List.map_append, List.map_append, h.entries, List.map_map, List.map_map]
    rfl

namespace LedgerService

variable {s : LedgerService} {t u : Transaction}

theorem buildCompletion_alike (h : t.ReadsAlike u) (reference reference' : String) :
    SameOutcome Transaction.Alike (s.buildCompletion t reference)
      (s.buildCompletion u reference') := by
  unfold buildCompletion
  rw [h.alike.baseLayersOf_eq, h.shape_eq]
  refine (SameOutcome.refl Eq.refl _).bind fun layers _ hlayers => ?_
  subst hlayers
  refine (SameOutcome.refl Eq.refl _).bind fun shape _ hshape => ?_
  subst hshape
  refine (SameOutcome.refl Eq.refl _).bind fun strategy _ hstrategy => ?_
  subst hstrategy
  unfold Strategy.settle
  rw [h.settlement_eq]
  refine (SameOutcome.refl Eq.refl _).bind fun specs _ hspecs => ?_
  subst hspecs
  exact Transaction.post_alike (t := .start t.journal reference _)
    (u := .start u.journal reference' _) ⟨h.journal, rfl⟩ specs

/-- **What a completion reads decides what it does**, before the rules see it. -/
theorem completionDraft_alike (h : t.ReadsAlike u) (reference reference' : String) :
    SameOutcome Transaction.Alike (s.completionDraft t reference)
      (s.completionDraft u reference') := by
  refine (buildCompletion_alike h reference reference').orError.bind fun c d hcd => ?_
  rw [hcd.validate_eq]
  exact (SameOutcome.refl (R := fun _ _ => True) (fun _ => trivial) _).bind
    fun _ _ _ => .ok hcd

end LedgerService

/-! ## Requests with other metadata -/

/-- A plan is determined by its request. -/
theorem IsPlan.eq_of_request {s : LedgerService} {chart : Chart} {p q : EntryPlan}
    (hp : IsPlan s chart p) (hq : IsPlan s chart q) (h : p.request = q.request) : p = q := by
  obtain ⟨request, currency, debit, credit, asset?, liability?⟩ := p
  obtain ⟨request', currency', debit', credit', asset?', liability?'⟩ := q
  obtain rfl : request = request' := h
  obtain rfl : debit = debit' := Except.ok.inj (hp.debit.symm.trans hq.debit)
  obtain rfl : credit = credit' := Except.ok.inj (hp.credit.symm.trans hq.credit)
  obtain rfl : currency = currency' := Option.some.inj (hp.currency.symm.trans hq.currency)
  obtain rfl : asset? = asset?' := (hp.bridge .asset).trans (hq.bridge .asset).symm
  obtain rfl : liability? = liability?' := (hp.bridge .liability).trans (hq.bridge .liability).symm
  rfl

namespace IsDraft

/-- The service writes the group and the type, and no other tag with a reserved key. -/
theorem get?_reserved {s : LedgerService} {request : TransactionRequest} {chart : Chart}
    {t : Transaction} {strategy : Strategy} {plans : List EntryPlan}
    (hd : IsDraft s request chart t strategy plans) (hm : request.metadata.IsPlain) {key : String}
    (hkey : key ∈ reservedKeys) : t.tags.get? key =
      if key = "group" then some (Text.trim request.shape.group.name)
      else if key = "type" then some (Text.trim request.shape.type) else none := by
  by_cases hgroup : key = "group"
  · rw [if_pos hgroup, hgroup, hd.get?_group hm]
  by_cases htype : key = "type"
  · rw [if_neg hgroup, if_pos htype, htype, hd.get?_type hm]
  · rw [if_neg hgroup, if_neg htype, hd.tags,
      Tags.get?_add_of_ne (by simpa [pair?_typeTag] using Ne.symm htype),
      Tags.get?_add_of_ne (by simpa [pair?_groupTag] using Ne.symm hgroup), hm.get?_tags hkey]

variable {s : LedgerService} {request : TransactionRequest} {chart : Chart} {m m' : Metadata}
  {t t' : Transaction} {strategy strategy' : Strategy} {plans plans' : List EntryPlan}
  (hd : IsDraft s { request with metadata := m } chart t strategy plans)
  (hd' : IsDraft s { request with metadata := m' } chart t' strategy' plans')

include hd hd'

theorem strategy_eq_of_metadata : strategy = strategy' :=
  Option.some.inj (hd.strategy_eq.symm.trans hd'.strategy_eq)

theorem plans_eq_of_metadata : plans = plans' := by
  have hrequests : plans.map EntryPlan.request = plans'.map EntryPlan.request :=
    hd.requests.trans hd'.requests.symm
  rw [← List.forall₂_eq_eq_eq, List.forall₂_map_left_iff, List.forall₂_map_right_iff] at hrequests
  rw [← List.forall₂_eq_eq_eq]
  exact (List.forall₂_iff_zip.2 ⟨hrequests.length_eq, fun {p q} hpq =>
    (hd.plan p (List.of_mem_zip hpq).1).eq_of_request (hd'.plan q (List.of_mem_zip hpq).2)
      ((List.forall₂_iff_zip.1 hrequests).2 hpq)⟩)

theorem journal_eq_of_metadata : t.journal = t'.journal :=
  Except.ok.inj (hd.journal.symm.trans hd'.journal)

/-- **Metadata decide nothing about the entries** of a created transaction. -/
theorem alike : t.Alike t' := by
  obtain rfl := hd.strategy_eq_of_metadata hd'
  obtain rfl := hd.plans_eq_of_metadata hd'
  refine ⟨hd.journal_eq_of_metadata hd', ?_⟩
  rw [hd.entries, hd'.entries, List.map_map, List.map_map]
  rfl

/-- What a completion reads is written by the service, unless the metadata write it too. -/
theorem readsAlike (hm : m.IsPlain) (hm' : m'.IsPlain) : t.ReadsAlike t' := by
  have hplans := hd.plans_eq_of_metadata hd'
  have hstrategy := hd.strategy_eq_of_metadata hd'
  refine ⟨hd.journal_eq_of_metadata hd', hd.detail.trans hd'.detail.symm, fun key hkey => ?_, ?_⟩
  · rw [hd.get?_reserved hm hkey, hd'.get?_reserved hm' hkey]
  · rw [hd.entries, hd'.entries, ← hplans, ← hstrategy, List.forall₂_map_left_iff,
      List.forall₂_map_right_iff, List.forall₂_same]
    refine fun x _ => ⟨rfl, fun key hkey => ?_⟩
    rw [get?_entryOf hm _ x hkey, get?_entryOf hm' _ x hkey]

end IsDraft

/-! ## The verdict of the standard rules -/

/-- The standard rules pass every completion of a transaction that they passed. -/
theorem IsDraft.approve_completionDraft_eq {s : LedgerService} {request : TransactionRequest}
    {chart : Chart} {t : Transaction} {strategy : Strategy} {plans : List EntryPlan}
    (hd : IsDraft s request chart t strategy plans) (hrules : s.rules = .standard s.currencies)
    (hs : strategy ≠ .direct) {lookup : BalanceLookup}
    (hpassed : s.rules.evaluate t lookup = .ok ()) (reference : String)
    (lookup' : BalanceLookup) :
    s.approve lookup' (s.completionDraft t reference) = s.completionDraft t reference := by
  cases hdraft : s.completionDraft t reference with
  | error f => rfl
  | ok c =>
    obtain ⟨hbuilt, hvalid⟩ := validated_eq_ok.1 hdraft
    obtain ⟨-, -, totals, htotals⟩ := of_validate hvalid
    exact LedgerService.approve_eq_ok.2
      ⟨rfl, hd.evaluate_completion hrules hs hpassed hbuilt htotals lookup'⟩

/-! ## The main result -/

/-- **Metadata that leave the reserved keys alone decide nothing.** Let a service create two
transactions from requests that differ only in their metadata. Their entries are the same, except
for tags. If no key of the metadata is shown as one of the reserved keys, then their completions
are the same as well, before the rules see them, except for references and tags. Under the
standard rules, what becomes of transactions that wait for completion is then also the same,
whatever the store answers. -/
theorem metadata_decide_nothing {s : LedgerService} {request : TransactionRequest} {chart : Chart}
    {m m' : Metadata} {lookup lookup' : BalanceLookup} {t t' : Transaction}
    (h : s.create { request with metadata := m } chart lookup = .ok t)
    (h' : s.create { request with metadata := m' } chart lookup' = .ok t') :
    t.Alike t' ∧ (m.IsPlain → m'.IsPlain →
      (∀ reference reference', SameOutcome Transaction.Alike (s.completionDraft t reference)
        (s.completionDraft t' reference')) ∧
      (s.rules = .standard s.currencies → request.shape.pending = true →
        ∀ reference reference' answers answers',
          SameOutcome Completion.Alike (s.complete t reference answers).1
            (s.complete t' reference' answers').1)) := by
  obtain ⟨hbuilt, -, hpassed⟩ := LedgerService.create_eq_ok.1 h
  obtain ⟨hbuilt', -, hpassed'⟩ := LedgerService.create_eq_ok.1 h'
  obtain ⟨strategy, plans, hd⟩ := exists_isDraft hbuilt
  obtain ⟨strategy', plans', hd'⟩ := exists_isDraft hbuilt'
  refine ⟨hd.alike hd', fun hm hm' => ?_⟩
  have hdraft := LedgerService.completionDraft_alike (s := s) (hd.readsAlike hd' hm hm')
  refine ⟨hdraft, fun hrules hpending reference reference' answers answers' => ?_⟩
  have hs : strategy ≠ .direct := by
    rintro rfl
    have htakes := strategyFor?_eq_some.1 hd.strategy_eq
    simp [Strategy.takes, hpending] at htakes
  rw [LedgerService.complete_of_not_completed (hd.isCompleted hm),
    LedgerService.complete_of_not_completed (hd'.isCompleted hm'),
    hd.approve_completionDraft_eq hrules hs hpassed,
    hd'.approve_completionDraft_eq hrules (hd.strategy_eq_of_metadata hd' ▸ hs) hpassed']
  replace hdraft := hdraft reference reference'
  generalize s.completionDraft t reference = draft, s.completionDraft t' reference' = draft'
    at hdraft
  cases hdraft with
  | error f => exact .error f
  | ok halike => exact .ok (.completed halike)

open SmallLedger in
/-- A deposit by way of some channel, and the same deposit without metadata. -/
theorem metadata_decide_nothing_smallLedger : ∃ t t' c c',
    service.create { deposit 40 with metadata := ∅ } chart silent = .ok t ∧
    service.create { deposit 40 with metadata := .ofList [("channel", "app")] } chart silent =
      .ok t' ∧
    t.Alike t' ∧ (service.complete t "T2" silent).1 = .ok (.completed c) ∧
    (service.complete t' "T3" spent).1 = .ok (.completed c') ∧ c.Alike c' := by
  obtain ⟨t, ht, h⟩ := bind_eq_ok.1 (by decide +kernel : (do
    let t ← service.create { deposit 40 with metadata := ∅ } chart silent
    let t' ← service.create { deposit 40 with metadata := .ofList [("channel", "app")] } chart
      silent
    let _ ← service.approve silent (service.completionDraft t "T2")
    return decide (t.isCompleted = false)) = (.ok true : Except Failure Bool))
  obtain ⟨t', ht', h⟩ := bind_eq_ok.1 h
  obtain ⟨c, hc, h⟩ := bind_eq_ok.1 h
  obtain ⟨halike, hplain⟩ := metadata_decide_nothing ht ht'
  obtain ⟨-, hcomplete⟩ := hplain (by decide +kernel) (by decide +kernel)
  have hcompleted := LedgerService.complete_eq_completed.2
    ⟨of_decide_eq_true (Except.ok.inj h), hc, rfl⟩
  have houtcome := hcomplete rfl rfl "T2" "T3" silent spent
  rw [hcompleted] at houtcome
  generalize houtcome' : (service.complete t' "T3" spent).1 = outcome at houtcome
  cases houtcome with
  | ok hsame =>
    cases hsame with
    | completed hsame =>
      exact ⟨t, t', c, _, ht, ht', halike, congrArg Prod.fst hcompleted, houtcome', hsame⟩

open SmallLedger in
/-- Metadata that name an account to credit have every leg paid out to it once more. -/
theorem metadata_route_money :
    ¬∀ (s : LedgerService) (request : TransactionRequest) (chart : Chart) (m m' : Metadata)
      (lookup : BalanceLookup) (t t' : Transaction) (reference reference' : String),
      s.rules = .standard s.currencies → request.shape.pending = true →
      s.create { request with metadata := m } chart lookup = .ok t →
      s.create { request with metadata := m' } chart lookup = .ok t' →
      SameOutcome Completion.Alike (s.complete t reference lookup).1
        (s.complete t' reference' lookup).1 := by
  intro hall
  obtain ⟨t, ht, h⟩ := bind_eq_ok.1 (by decide +kernel : (do
    let t ← service.create { deposit 40 with metadata := ∅ } chart silent
    let t' ← service.create { deposit 40 with metadata := .ofList [("credit", "payer")] } chart
      silent
    let c ← service.approve silent (service.completionDraft t "T2")
    let c' ← service.approve silent (service.completionDraft t' "T3")
    return decide (t.isCompleted = false ∧ t'.isCompleted = false ∧ ¬c.Alike c')) =
      (.ok true : Except Failure Bool))
  obtain ⟨t', ht', h⟩ := bind_eq_ok.1 h
  obtain ⟨c, hc, h⟩ := bind_eq_ok.1 h
  obtain ⟨c', hc', h⟩ := bind_eq_ok.1 h
  obtain ⟨hopen, hopen', hne⟩ := of_decide_eq_true (Except.ok.inj h)
  have houtcome := hall service (deposit 40) chart _ _ silent t t' "T2" "T3" rfl rfl ht ht'
  rw [LedgerService.complete_eq_completed.2 ⟨hopen, hc, rfl⟩,
    LedgerService.complete_eq_completed.2 ⟨hopen', hc', rfl⟩] at houtcome
  cases houtcome with
  | ok hsame =>
    cases hsame with
    | completed hsame => exact hne hsame

end LayeredLedger
