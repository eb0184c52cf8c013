import LayeredLedger.Proofs.Outcome
import LayeredLedger.Proofs.Postings
import LayeredLedger.Service.Create

/-!
# The anatomy of a created transaction

A transaction is created from plans, one for every pair of a debit and a credit, and its entries
are the legs of the plans, one plan after the other, under one strategy.

* `LedgerService.Registers`: an account has the registered number of its currency;
* `IsPlan`: what holds of a plan that is found and passes its checks;
* `inboundLegs_eq_ok`, `BillLegs`, `billPaymentLegs_eq_ok`: the legs of pending transactions;
* `Strategy.legsOf`: the legs of a plan, as a list;
* `IsDraft`: the request, its plans and the transaction fit together;
* **`exists_isDraft`**: every transaction that is built has such plans.
-/

namespace LayeredLedger

/-! ## Registered numbers -/

theorem CurrencyRegistry.idOf_eq_ok {r : CurrencyRegistry} {code : CurrencyCode}
    {id : CurrencyId} : r.idOf code = .ok id ↔ r.id? code = some id := by
  unfold idOf
  cases r.id? code <;> simp

namespace LedgerService

variable {s : LedgerService} {chart : Chart}

/-- The account has the registered number of its currency. -/
def Registers (s : LedgerService) (a : Account) : Prop :=
  s.currencies.id? a.currency = some a.currencyId

theorem registeredId_eq_ok {a : Account} {id : CurrencyId} :
    s.registeredId a = .ok id ↔ s.Registers a ∧ id = a.currencyId := by
  unfold registeredId Registers
  cases h : s.currencies.idOf a.currency with
  | error e =>
    have : s.currencies.id? a.currency ≠ some a.currencyId := fun h' => by
      rw [CurrencyRegistry.idOf_eq_ok.2 h'] at h
      cases h
    simp [this]
  | ok id' =>
    rw [CurrencyRegistry.idOf_eq_ok.1 h]
    by_cases he : id' = a.currencyId
    · subst he
      simp [eq_comm]
    · simp [he]

theorem registeredAccount_eq_ok {code : String} {a : Account} :
    s.registeredAccount chart code = .ok a ↔ chart.finalAccount code = .ok a ∧ s.Registers a := by
  unfold registeredAccount
  constructor
  · intro h
    obtain ⟨b, hb, h⟩ := bind_eq_ok.1 h
    obtain ⟨id, hid, h⟩ := bind_eq_ok.1 h
    obtain rfl : b = a := by simpa [pure, Except.pure] using h
    exact ⟨hb, (registeredId_eq_ok.1 hid).1⟩
  · rintro ⟨ha, hr⟩
    exact bind_eq_ok.2 ⟨a, ha, bind_eq_ok.2 ⟨_, registeredId_eq_ok.2 ⟨hr, rfl⟩, rfl⟩⟩

theorem registeredBridge_eq_ok {currency : CurrencyCode} {role : BridgeRole}
    {b? : Option Account} (h : s.registeredBridge chart currency role = .ok b?) :
    b? = chart.bridge? currency role ∧ ∀ b, b? = some b → s.Registers b := by
  unfold registeredBridge at h
  split at h
  · rename_i hb
    obtain rfl : none = b? := by simpa [pure, Except.pure] using h
    simp [hb]
  · rename_i b hb
    obtain ⟨id, hid, h⟩ := bind_eq_ok.1 h
    obtain rfl : some b = b? := by simpa [pure, Except.pure] using h
    refine ⟨hb.symm, fun b' e => ?_⟩
    obtain rfl : b = b' := by simpa using e
    exact (registeredId_eq_ok.1 hid).1

end LedgerService

/-! ## Plans -/

/-- What holds of a plan that is found and passes its checks. -/
structure IsPlan (s : LedgerService) (chart : Chart) (p : EntryPlan) : Prop where
  debit : chart.finalAccount p.request.debit = .ok p.debit
  credit : chart.finalAccount p.request.credit = .ok p.credit
  debit_registered : s.Registers p.debit
  credit_registered : s.Registers p.credit
  currency : s.currencies.id? p.request.amount.currency = some p.currency
  bridge : ∀ role, p.bridge? role = chart.bridge? p.request.amount.currency role
  bridge_registered : ∀ role b, p.bridge? role = some b → s.Registers b
  amount_pos : 0 < p.amount
  debit_currency : p.debit.currency = p.request.amount.currency
  credit_currency : p.credit.currency = p.request.amount.currency

theorem checkCurrency_eq_ok {r : EntryRequest} {code : String} {a : Account} :
    checkCurrency r code a = .ok () ↔ a.currency = r.amount.currency := by
  unfold checkCurrency
  split <;> simp [*]

theorem checkPlan_eq_ok {bounds? : Option AmountBounds} {p : EntryPlan}
    (h : checkPlan bounds? p = .ok ()) :
    0 < p.amount ∧ p.debit.currency = p.request.amount.currency ∧
      p.credit.currency = p.request.amount.currency := by
  unfold checkPlan at h
  split at h
  · cases h
  · rename_i hpos
    obtain ⟨_, hd, h⟩ := bind_eq_ok.1 h
    obtain ⟨_, hc, -⟩ := bind_eq_ok.1 h
    exact ⟨Int.not_le.1 hpos, checkCurrency_eq_ok.1 hd, checkCurrency_eq_ok.1 hc⟩

theorem LedgerService.request_of_plan {s : LedgerService} {chart : Chart} {r : EntryRequest}
    {p : EntryPlan} (h : s.plan chart r = .ok p) : p.request = r := by
  unfold plan at h
  obtain ⟨debit, -, h⟩ := bind_eq_ok.1 h
  obtain ⟨credit, -, h⟩ := bind_eq_ok.1 h
  obtain ⟨currency, -, h⟩ := bind_eq_ok.1 h
  obtain ⟨asset?, -, h⟩ := bind_eq_ok.1 h
  obtain ⟨liability?, -, h⟩ := bind_eq_ok.1 h
  cases h
  rfl

theorem isPlan {s : LedgerService} {chart : Chart} {bounds? : Option AmountBounds}
    {p : EntryPlan} (hp : s.plan chart p.request = .ok p) (hc : checkPlan bounds? p = .ok ()) :
    IsPlan s chart p := by
  unfold LedgerService.plan at hp
  obtain ⟨debit, hdebit, hp⟩ := bind_eq_ok.1 hp
  obtain ⟨credit, hcredit, hp⟩ := bind_eq_ok.1 hp
  obtain ⟨currency, hcurrency, hp⟩ := bind_eq_ok.1 hp
  obtain ⟨asset?, hasset, hp⟩ := bind_eq_ok.1 hp
  obtain ⟨liability?, hliability, hp⟩ := bind_eq_ok.1 hp
  rw [LedgerService.registeredAccount_eq_ok] at hdebit hcredit
  rw [CurrencyRegistry.idOf_eq_ok] at hcurrency
  obtain ⟨hasset, hassetr⟩ := LedgerService.registeredBridge_eq_ok hasset
  obtain ⟨hliability, hliabilityr⟩ := LedgerService.registeredBridge_eq_ok hliability
  obtain ⟨hpos, hdc, hcc⟩ := checkPlan_eq_ok hc
  obtain ⟨request, currency', debit', credit', asset', liability'⟩ := p
  obtain ⟨rfl, rfl, rfl, rfl, rfl⟩ : currency = currency' ∧ debit = debit' ∧ credit = credit' ∧
      asset? = asset' ∧ liability? = liability' := by
    simpa [pure, Except.pure] using hp
  exact {
    debit := hdebit.1
    credit := hcredit.1
    debit_registered := hdebit.2
    credit_registered := hcredit.2
    currency := hcurrency
    bridge := fun role => by cases role <;> assumption
    bridge_registered := fun role => by cases role <;> assumption
    amount_pos := hpos
    debit_currency := hdc
    credit_currency := hcc }

namespace IsPlan

variable {s : LedgerService} {chart : Chart} {p : EntryPlan} (hp : IsPlan s chart p)

include hp

/-- A registered account in the currency of the request has the number of the plan. -/
theorem currencyId_eq {a : Account} (hr : s.Registers a)
    (hc : a.currency = p.request.amount.currency) : a.currencyId = p.currency := by
  have h := hp.currency
  rw [← hc, hr] at h
  exact Option.some.inj h

theorem bridge_currency {role : BridgeRole} {b : Account} (hb : p.bridge? role = some b) :
    b.kind = .bridge role ∧ b.currency = p.request.amount.currency := by
  rw [hp.bridge role] at hb
  unfold Chart.bridge? at hb
  have h := List.find?_some hb
  simp only [decide_eq_true_eq] at h
  exact h

end IsPlan

/-! ## Legs -/

/-- The legs of a plan, none if it has no legs. -/
def Strategy.legsOf (strategy : Strategy) (p : EntryPlan) : List EntrySpec :=
  (strategy.legs p).toOption.getD []

theorem Strategy.legsOf_eq {strategy : Strategy} {p : EntryPlan} {legs : List EntrySpec}
    (h : strategy.legs p = .ok legs) : strategy.legsOf p = legs := by
  simp [legsOf, h, Except.toOption]

theorem EntryPlan.bridge_eq_ok {p : EntryPlan} {role : BridgeRole} {b : Account} :
    p.bridge role = .ok b ↔ p.bridge? role = some b := by
  unfold bridge
  cases p.bridge? role <;> simp

theorem inboundLegs_eq_ok {p : EntryPlan} {legs : List EntrySpec}
    (h : inboundLegs p = .ok legs) : ∃ asset liability, p.bridge? .asset = some asset ∧
      p.bridge? .liability = some liability ∧
      legs = intoBridge p liability (.ofList [creditTag p.request.credit]) ++
        pendingLegs p asset liability none := by
  obtain ⟨liability, hl, h⟩ := bind_eq_ok.1 h
  obtain ⟨asset, ha, h⟩ := bind_eq_ok.1 h
  exact ⟨asset, liability, EntryPlan.bridge_eq_ok.1 ha, EntryPlan.bridge_eq_ok.1 hl,
    (Except.ok.inj h).symm⟩

/-- The legs of a bill payment between two bridges, by kind of entry. -/
inductive BillLegs (p : EntryPlan) (asset liability : Account) : List EntrySpec → Prop where
  | amount (kind : p.request.kind? = some .amount) : BillLegs p asset liability
      (intoBridge p liability (.ofList [creditTag p.request.credit, kindTag .amount]) ++
        pendingLegs p asset liability none)
  | rebate (kind : p.request.kind? = some .rebate) : BillLegs p asset liability
      (pendingLegs p asset liability (some (.ofList [debitTag p.request.debit, kindTag .rebate])))
  | commission (kind : p.request.kind? = some .commission) (side : p.credit.side = .credit) :
      BillLegs p asset liability
        (pendingLegs p p.debit liability
          (some (.ofList [debitTag p.debit.code, kindTag .commission])))
  | plainCommission (kind : p.request.kind? = some .commission) (side : p.credit.side = .debit) :
      BillLegs p asset liability (pendingLegs p asset p.debit none)
  | none (amount : p.request.kind? ≠ some .amount) (rebate : p.request.kind? ≠ some .rebate)
      (commission : p.request.kind? ≠ some .commission) : BillLegs p asset liability []

theorem billPaymentLegs_eq_ok {p : EntryPlan} {legs : List EntrySpec}
    (h : billPaymentLegs p = .ok legs) : ∃ asset liability, p.bridge? .asset = some asset ∧
      p.bridge? .liability = some liability ∧ BillLegs p asset liability legs := by
  obtain ⟨principal, hprincipal, h⟩ := bind_eq_ok.1 h
  obtain ⟨image, himage, h⟩ := bind_eq_ok.1 h
  obtain ⟨asset, ha, himage⟩ := bind_eq_ok.1 himage
  obtain ⟨liability, hl, himage⟩ := bind_eq_ok.1 himage
  obtain rfl := Except.ok.inj h
  refine ⟨asset, liability, EntryPlan.bridge_eq_ok.1 ha, EntryPlan.bridge_eq_ok.1 hl, ?_⟩
  by_cases hamount : p.request.kind? = some .amount
  · rw [billPrincipalLegs, if_pos hamount, hl] at hprincipal
    rw [hamount] at himage
    obtain rfl := Except.ok.inj hprincipal
    obtain rfl := Except.ok.inj himage
    exact .amount hamount
  rw [billPrincipalLegs, if_neg hamount] at hprincipal
  obtain rfl := Except.ok.inj hprincipal
  rw [List.nil_append]
  split at himage
  · contradiction
  · rename_i hkind
    obtain rfl := Except.ok.inj himage
    exact .rebate hkind
  · rename_i hkind
    split at himage
    · split at himage
      · rename_i hside
        obtain rfl := Except.ok.inj himage
        exact .commission hkind hside
      · rename_i hside
        obtain rfl := Except.ok.inj himage
        exact .plainCommission hkind hside
    · cases himage
  · rename_i hrebate hcommission
    obtain rfl := Except.ok.inj himage
    exact .none hamount hrebate hcommission

theorem chooseForEntry_eq_ok {r : EntryRequest} {shape : TransactionShape} {strategy : Strategy} :
    chooseForEntry r shape = .ok strategy ↔ strategyFor? shape = some strategy := by
  unfold chooseForEntry
  cases strategyFor? shape <;> simp

/-! ## Posting -/

theorem checkAmounts_eq_ok {specs : List EntrySpec} :
    checkAmounts specs = .ok () ↔ ∀ x ∈ specs, 0 < x.amount := by
  unfold checkAmounts firstNotPositive?
  cases h : specs.find? fun x => decide (x.amount ≤ 0) with
  | none =>
    have hpos : ∀ x ∈ specs, 0 < x.amount := fun x hx =>
      Int.not_le.1 fun hle => List.find?_eq_none.1 h x hx (decide_eq_true hle)
    simpa using hpos
  | some x =>
    have hx : x.amount ≤ 0 := by simpa using List.find?_some h
    simpa using ⟨x, List.mem_of_find?_eq_some h, Int.not_lt.2 hx⟩

theorem Transaction.post_eq_ok {t t' : Transaction} {specs : List EntrySpec} :
    t.post specs = .ok t' ↔ (∀ x ∈ specs, 0 < x.amount) ∧
      t' = { t with entries := t.entries ++ specs.map t.entryOf } := by
  rw [← checkAmounts_eq_ok]
  unfold post
  cases checkAmounts specs <;> simp [eq_comm]

@[simp] theorem Transaction.tags_tag (t : Transaction) (text : String) :
    (t.tag text).tags = t.tags.add text := by
  rw [tag]

@[simp] theorem Transaction.detail_tag (t : Transaction) (text : String) :
    (t.tag text).detail = t.detail := by
  rw [tag]

@[simp] theorem Transaction.journal_tag (t : Transaction) (text : String) :
    (t.tag text).journal = t.journal := by
  rw [tag]

@[simp] theorem Transaction.entries_tag (t : Transaction) (text : String) :
    (t.tag text).entries = t.entries := by
  rw [tag]

@[simp] theorem Transaction.tags_start (journal : JournalId) (detail : String) (tags : Tags) :
    (Transaction.start journal detail tags).tags = tags := rfl

@[simp] theorem Transaction.tags_reversal (t : Transaction) (reference : String) :
    (t.reversal reference).tags = t.tags.add ("reverses:" ++ t.detail) := by
  rw [reversal]

/-- Plans are posted one after the other, and none of them changes the tags. -/
theorem foldlM_postPlan {shape : TransactionShape} {plans : List EntryPlan} {t t' : Transaction}
    {strategy : Strategy} (hs : strategyFor? shape = some strategy)
    (h : plans.foldlM (LedgerService.postPlan shape) t = .ok t') :
    (∀ p ∈ plans, strategy.legs p = .ok (strategy.legsOf p)) ∧
      t' = { t with entries := t.entries ++ (plans.flatMap strategy.legsOf).map t.entryOf } := by
  induction plans generalizing t with
  | nil =>
    obtain rfl : t = t' := by simpa [pure, Except.pure] using h
    simp
  | cons p plans ih =>
    rw [List.foldlM_cons] at h
    obtain ⟨next, hnext, h⟩ := bind_eq_ok.1 h
    obtain ⟨strategy', hs', hnext⟩ := bind_eq_ok.1 hnext
    obtain rfl : strategy = strategy' :=
      Option.some.inj (hs.symm.trans (chooseForEntry_eq_ok.1 hs'))
    obtain ⟨legs, hlegs, hnext⟩ := bind_eq_ok.1 hnext
    obtain ⟨-, rfl⟩ := Transaction.post_eq_ok.1 hnext
    obtain ⟨hrest, rfl⟩ := ih h
    have hp : strategy.legsOf p = legs := Strategy.legsOf_eq hlegs
    refine ⟨?_, ?_⟩
    · intro q hq
      rcases List.mem_cons.1 hq with rfl | hq
      · rw [hp, hlegs]
      · exact hrest q hq
    · simp only [List.flatMap_cons, hp, List.map_append, List.append_assoc]
      rfl

/-! ## Drafts -/

/-- The transaction of a request while its plans are posted. -/
def TransactionRequest.blank (request : TransactionRequest) (journal : JournalId) : Transaction :=
  .start journal request.reference (metadataTags request.metadata)

/-- The request, its plans and the transaction fit together. -/
structure IsDraft (s : LedgerService) (request : TransactionRequest) (chart : Chart)
    (t : Transaction) (strategy : Strategy) (plans : List EntryPlan) : Prop where
  strategy_eq : strategyFor? request.shape = some strategy
  requests : plans.map EntryPlan.request = request.entries
  plan : ∀ p ∈ plans, IsPlan s chart p
  legs : ∀ p ∈ plans, strategy.legs p = .ok (strategy.legsOf p)
  journal : s.journalOf request = .ok t.journal
  entries : t.entries = (plans.flatMap strategy.legsOf).map (request.blank t.journal).entryOf
  tags : t.tags = ((metadataTags request.metadata).add ("group:" ++ request.shape.group.name)).add
    ("type:" ++ request.shape.type)
  detail : t.detail = request.reference

/-- **Every transaction that is built has an anatomy.** -/
theorem exists_isDraft {s : LedgerService} {request : TransactionRequest} {chart : Chart}
    {t : Transaction} (h : s.build request chart = .ok t) :
    ∃ strategy plans, IsDraft s request chart t strategy plans := by
  unfold LedgerService.build at h
  split at h
  · cases h
  rename_i hne
  obtain ⟨plans, hplans, h⟩ := bind_eq_ok.1 h
  obtain ⟨_, hchecks, h⟩ := bind_eq_ok.1 h
  obtain ⟨journal, hjournal, h⟩ := bind_eq_ok.1 h
  obtain ⟨posted, hposted, h⟩ := bind_eq_ok.1 h
  obtain ⟨hrequests, hplan⟩ := mapM_eq_ok_inverse hplans
    fun _ _ => LedgerService.request_of_plan
  obtain ⟨strategy, hstrategy⟩ : ∃ strategy, strategyFor? request.shape = some strategy := by
    cases plans with
    | nil => simp [← hrequests] at hne
    | cons p plans =>
      rw [List.foldlM_cons] at hposted
      obtain ⟨_, hfirst, -⟩ := bind_eq_ok.1 hposted
      obtain ⟨strategy, hs, -⟩ := bind_eq_ok.1 hfirst
      exact ⟨strategy, chooseForEntry_eq_ok.1 hs⟩
  obtain ⟨hlegs, rfl⟩ := foldlM_postPlan hstrategy hposted
  obtain rfl := Except.ok.inj h
  exact ⟨strategy, plans, {
    strategy_eq := hstrategy
    requests := hrequests
    plan := fun p hp => isPlan (hplan p hp) (forM_eq_ok_iff.1 hchecks p hp)
    legs := hlegs
    journal := hjournal
    entries := List.nil_append _
    tags := by simp only [Transaction.tags_tag, Transaction.tags_start]
    detail := rfl }⟩

theorem IsDraft.postings {s : LedgerService} {request : TransactionRequest} {chart : Chart}
    {t : Transaction} {strategy : Strategy} {plans : List EntryPlan}
    (h : IsDraft s request chart t strategy plans) :
    t.postings = plans.flatMap fun p => (strategy.legsOf p).map EntrySpec.posting := by
  rw [Transaction.postings, h.entries, Transaction.postings_entryOf, List.map_flatMap]

end LayeredLedger
