import LayeredLedger.Proofs.Completion
import LayeredLedger.Proofs.DailyReset

/-!
# Numbers of currencies

An account carries a number for its currency, and so does a layer. The registry says which number
is right. Operations check the numbers of the accounts they look at, so what they post is in the
currency it says it is in, with two exceptions: a completion posts a leg to whatever account it is
tagged with, and a reset does not look at the number of the bridge.

* `LedgerService.mismatch?`, `Chart.touched`: wrong numbers, and the accounts that are looked at;
* `Entry.Denominated`: the right number, and a layer in that currency;
* `Transaction.PaysInKind`: legs name accounts in their own currency;
* `IsDraft.paysInKind`, `denominated_buildCompletion`, `denominated_reversal`,
  `denominated_dailyReset`: the entries that operations post;
* `create_of_mismatch`, `complete_of_mismatch`, `dailyReset_of_mismatch`: a wrong number is an
  error;
* **`currency_numbers_checked`**: what operations make of numbers, right or wrong;
* `bridge_number_unchecked`: a reset posts to a bridge with a wrong number.
-/

namespace LayeredLedger

/-! ## Right and wrong numbers -/

namespace LedgerService

variable {s : LedgerService} {a b : Account}

instance (s : LedgerService) (a : Account) : Decidable (s.Registers a) :=
  inferInstanceAs (Decidable (_ = _))

/-- The error that the account has another number for its currency than the registry. -/
def mismatch? (s : LedgerService) (a : Account) : Option LedgerError :=
  match s.currencies.id? a.currency with
  | none => none
  | some id =>
    if id = a.currencyId then none else some (.currencyIdMismatch a.code a.currencyId id)

theorem Registers.mismatch?_eq_none (h : s.Registers a) : s.mismatch? a = none := by
  rw [Registers] at h
  simp [mismatch?, h]

theorem Registers.currencyId_eq (ha : s.Registers a) (hb : s.Registers b)
    (h : a.currency = b.currency) : a.currencyId = b.currencyId := by
  rw [Registers, h, hb] at ha
  exact (Option.some.inj ha).symm

/-- The number of an account is wrong, or there is none in the registry. -/
theorem registeredId_eq_error {e : LedgerError} : s.registeredId a = .error e ↔
    s.mismatch? a = some e ∨ s.currencies.idOf a.currency = .error e := by
  unfold registeredId mismatch? CurrencyRegistry.idOf
  cases s.currencies.id? a.currency with
  | none => simp
  | some id =>
    by_cases hid : id = a.currencyId <;> simp [hid]

end LedgerService

/-- The account of the entry has the registered number of its currency, and the layer is in that
currency, in a band that is known. -/
structure Entry.Denominated (s : LedgerService) (e : Entry) : Prop where
  registers : s.Registers e.account
  layer : ∃ band, e.layer.decode? = some (band, e.account.currencyId)

theorem Entry.Denominated.of {s : LedgerService} {e : Entry} (hregisters : s.Registers e.account)
    {band : Band} (hlayer : e.layer = .of band e.account.currencyId) : e.Denominated s :=
  ⟨hregisters, band, by rw [hlayer, Layer.decode?_of]⟩

/-- An entry with the account and the layer of another is denominated like it. -/
theorem Entry.Denominated.congr {s : LedgerService} {e e' : Entry} (h : e.Denominated s)
    (haccount : e.account = e'.account) (hlayer : e.layer = e'.layer) : e'.Denominated s :=
  ⟨haccount ▸ h.registers, haccount ▸ hlayer ▸ h.layer⟩

/-! ## Created transactions -/

/-- The tags name no account to credit or to debit but those of the request. -/
def EntryPlan.Labels (p : EntryPlan) (tags? : Option Tags) : Prop :=
  ∀ key ∈ ["credit", "debit"], ∀ code, tags?.bind (·.get? key) = some code →
    code = Text.trim p.request.credit ∨ code = Text.trim p.request.debit

namespace EntryPlan.Labels

variable {p : EntryPlan} {tags : Tags}

theorem none : p.Labels none := nofun

theorem ofList {texts : List String} (h : ∀ text ∈ texts, ∀ key ∈ ["credit", "debit"], ∀ code,
    pair? text = some (key, code) →
      code = Text.trim p.request.credit ∨ code = Text.trim p.request.debit) :
    p.Labels (some (.ofList texts)) := by
  intro key hkey code hcode
  obtain ⟨t, ht, hpair⟩ := Tags.exists_of_get? hcode
  obtain ⟨text, htext, rfl, -⟩ := Tags.mem_ofList.1 ht
  rw [pair?_trim] at hpair
  exact h text htext key hkey code hpair

theorem intoBridge (h : p.Labels (some tags)) (liability : Account) :
    ∀ x ∈ intoBridge p liability tags, p.Labels x.tags? := by
  intro x hx
  simp only [LayeredLedger.intoBridge, List.mem_cons, List.not_mem_nil, or_false] at hx
  rcases hx with rfl | rfl
  · exact none
  · exact h

theorem pendingLegs {tags? : Option Tags} (h : p.Labels tags?) (asset liability : Account) :
    ∀ x ∈ pendingLegs p asset liability tags?, p.Labels x.tags? := by
  intro x hx
  unfold LayeredLedger.pendingLegs at hx
  split at hx
  · simp only [List.mem_cons, List.not_mem_nil, or_false] at hx
    rcases hx with rfl | rfl | rfl | rfl
    · exact none
    · exact none
    · exact none
    · exact h
  · simp only [List.mem_cons, List.not_mem_nil, or_false] at hx
    rcases hx with rfl | rfl
    · exact h
    · exact none

theorem credit : p.Labels (some (.ofList [creditTag p.request.credit])) :=
  ofList (by simp [pair?_creditTag])

theorem creditKind (kind : EntryKind) :
    p.Labels (some (.ofList [creditTag p.request.credit, kindTag kind])) :=
  ofList (by simp [pair?_creditTag, pair?_kindTag])

theorem debitKind {code : String} (hcode : code = p.request.debit) (kind : EntryKind) :
    p.Labels (some (.ofList [debitTag code, kindTag kind])) :=
  ofList (by simp [pair?_debitTag, pair?_kindTag, hcode])

theorem directLegs : ∀ x ∈ directLegs p, p.Labels x.tags? := by
  have hfee : ∀ limit : String, p.Labels (some (.ofList ["fee_limit:" ++ limit])) := fun limit =>
    ofList (by
      have hpair : pair? ("fee_limit:" ++ limit) = some ("fee_limit", Text.trim limit) :=
        pair?_append limit (by decide) (by decide) (by decide)
      simp [hpair])
  intro x hx
  rcases List.mem_append.1 hx with hx | hx
  · rcases List.mem_append.1 hx with hx | hx
    · simp only [transferLegs, List.mem_cons, List.not_mem_nil, or_false] at hx
      rcases hx with rfl | rfl <;> exact none
    · unfold feeLegs at hx
      split at hx
      · obtain ⟨y, -, rfl⟩ := List.mem_map.1 hx
        cases hlimit : p.request.feeLimit? with
        | none => exact none
        | some limit => exact hfee limit
      · simp at hx
  · unfold usageLegs at hx
    split at hx
    · cases hbridge : p.assetBridge? with
      | none => simp [hbridge] at hx
      | some bridge =>
        simp only [hbridge, usageOn, List.cons_append, List.nil_append, List.mem_cons,
          List.not_mem_nil, or_false] at hx
        rcases hx with rfl | rfl | rfl | rfl <;> exact none
    · simp at hx

/-- No leg names any other account than the two of the request. -/
theorem legs {strategy : Strategy} {legs : List EntrySpec} (h : strategy.legs p = .ok legs)
    (hdebit : p.debit.code = p.request.debit) : ∀ x ∈ legs, p.Labels x.tags? := by
  intro x hx
  cases strategy with
  | direct =>
    obtain rfl := Except.ok.inj h
    exact directLegs x hx
  | pendingInbound =>
    obtain ⟨asset, liability, -, -, rfl⟩ := inboundLegs_eq_ok h
    rcases List.mem_append.1 hx with hx | hx
    · exact credit.intoBridge liability x hx
    · exact none.pendingLegs asset liability x hx
  | pendingBillPayment =>
    obtain ⟨asset, liability, -, -, hbill⟩ := billPaymentLegs_eq_ok h
    cases hbill with
    | amount =>
      rcases List.mem_append.1 hx with hx | hx
      · exact (creditKind .amount).intoBridge liability x hx
      · exact none.pendingLegs asset liability x hx
    | rebate => exact (debitKind rfl .rebate).pendingLegs asset liability x hx
    | commission => exact (debitKind hdebit .commission).pendingLegs p.debit liability x hx
    | plainCommission => exact none.pendingLegs asset p.debit x hx
    | none => simp at hx

end EntryPlan.Labels

/-- Every entry that names an account names one in its own currency. -/
def Transaction.PaysInKind (t : Transaction) : Prop :=
  ∀ e ∈ t.entries, ∀ code, e.Names code → ∀ a, findAccount? t code = some a →
    a.currency = e.account.currency

theorem Transaction.PaysInKind.version {t version : Transaction} (h : t.PaysInKind)
    (hversion : version.IsVersionOf t) : version.PaysInKind := by
  intro e he code hnames a ha
  rw [hversion.entries] at he
  rw [findAccount?, hversion.entries] at ha
  exact h e he code hnames a ha

namespace IsDraft

variable {s : LedgerService} {request : TransactionRequest} {chart : Chart} {t : Transaction}
  {strategy : Strategy} {plans : List EntryPlan} (hd : IsDraft s request chart t strategy plans)

include hd

theorem denominated {e : Entry} (he : e ∈ t.entries) : e.Denominated s := by
  obtain ⟨hregisters, band, -, hlayer⟩ := hd.registers he
  exact .of hregisters hlayer

/-- In one currency there is no other to pay in. -/
theorem paysInKind_of_single {currency : CurrencyCode}
    (hsingle : ∀ r ∈ request.entries, r.amount.currency = currency) : t.PaysInKind := by
  have hcurrency : ∀ e ∈ t.entries, e.account.currency = currency := by
    intro e he
    obtain ⟨p, hp, x, hx, rfl⟩ := hd.exists_leg he
    have hr : p.request ∈ request.entries := by
      rw [← hd.requests]
      exact List.mem_map_of_mem hp
    exact ((hd.plan p hp).registers (hd.isLegOf hp hx)).2.1.trans (hsingle _ hr)
  intro e he code _ a ha
  obtain ⟨e', he', rfl⟩ := exists_of_findAccount? ha
  rw [hcurrency e' he', hcurrency e he]

/-- Legs name the accounts of their request, unless metadata name others or codes mislead. -/
theorem paysInKind (ht : chart.IsTidy) (hm : request.metadata.IsPlain) : t.PaysInKind := by
  intro e he code hnames a ha
  obtain ⟨p, hp, x, hx, rfl⟩ := hd.exists_leg he
  have hplan := hd.plan p hp
  have hlabels : p.Labels x.tags? :=
    EntryPlan.Labels.legs (hd.legs p hp) hplan.lists_debit.2 x hx
  have hcode : code = Text.trim p.request.credit ∨ code = Text.trim p.request.debit := by
    rcases hnames with hkey | hkey
    · rw [get?_entryOf hm _ x (by decide)] at hkey
      exact hlabels "credit" (by simp) code hkey
    · rw [get?_entryOf hm _ x (by decide)] at hkey
      exact hlabels "debit" (by simp) code hkey
  rw [hd.trim_credit ht hp, hd.trim_debit ht hp] at hcode
  -- the account that is found has the code, and charts list one account under a code
  have hlisted : chart.Lists a ∧ a.code = code := by
    obtain ⟨e', he', rfl⟩ := Option.map_eq_some_iff.1 ha
    exact ⟨(hd.entry ht (List.mem_of_find?_eq_some he')).1, by simpa using List.find?_some he'⟩
  have haccount : a = p.credit ∨ a = p.debit :=
    hcode.imp
      (fun h => hlisted.1.eq_of_code hplan.lists_credit.1 (hlisted.2.trans h))
      (fun h => hlisted.1.eq_of_code hplan.lists_debit.1 (hlisted.2.trans h))
  have hcurrency : a.currency = p.request.amount.currency := by
    rcases haccount with rfl | rfl
    · exact hplan.credit_currency
    · exact hplan.debit_currency
  exact hcurrency.trans (hplan.registers (hd.isLegOf hp hx)).2.1.symm

end IsDraft

/-! ## Completions and reversals -/

section FromTransaction

variable {s : LedgerService} {t c : Transaction} {reference : String}

theorem LedgerService.registers_of_baseLayersOf {layers : BaseLayers}
    (h : s.baseLayersOf t = .ok layers) {e : Entry} (he : e ∈ t.entries) :
    s.Registers e.account := by
  obtain ⟨b, -, hb⟩ := exists_of_mapM_eq_ok h he
  obtain ⟨id, hid, -⟩ := map_eq_ok.1 hb
  exact (registeredId_eq_ok.1 hid).1

theorem SettlesEntry.currency_eq {layers : BaseLayers} (hkind : t.PaysInKind) {e : Entry}
    (he : e ∈ t.entries) {x : EntrySpec} (h : SettlesEntry t layers e x) :
    x.account.currency = e.account.currency := by
  rcases h.account with haccount | ⟨code, hnames, haccount⟩ | haccount
  · rw [haccount]
  · exact hkind e he code hnames _ haccount
  · obtain ⟨e', he', haccount⟩ := Option.map_eq_some_iff.1 haccount
    have hbridge := List.find?_some he'
    simp only [decide_eq_true_eq] at hbridge
    rw [← haccount, hbridge.2]

/-- A completion posts to registered accounts, on layers of known bands in the currencies of its
transaction. If legs name accounts in their own currency, every entry is in that of its account. -/
theorem denominated_buildCompletion (ht : ∀ e ∈ t.entries, e.Denominated s)
    (h : s.buildCompletion t reference = .ok c) : ∀ e ∈ c.entries, s.Registers e.account ∧
      (∃ e' ∈ t.entries, ∃ band, e.layer.decode? = some (band, e'.account.currencyId)) ∧
      (t.PaysInKind → e.Denominated s) := by
  obtain ⟨layers, settled, hlayers, -, hpostings, hsettled⟩ :=
    LedgerService.buildCompletion_eq_ok h
  obtain rfl := LedgerService.baseLayersOf_eq_ok hlayers
  intro e he
  have hmem : e.posting ∈ c.postings := List.mem_map_of_mem he
  rw [hpostings] at hmem
  obtain ⟨x, hx, hposting⟩ := List.mem_map.1 hmem
  have haccount : x.account = e.account := congrArg Posting.account hposting
  have hlayer : x.layer = e.layer := congrArg Posting.layer hposting
  rcases List.mem_append.1 hx with hx | hx
  · obtain ⟨e', he', hxa, hxl⟩ := mem_unwindSpecs hx
    have hsame := (ht e' he').congr (hxa.trans haccount) (hxl.trans hlayer)
    have hback := (ht e' he').layer
    rw [hxl, hlayer] at hback
    exact ⟨hsame.registers, ⟨e', he', hback⟩, fun _ => hsame⟩
  · obtain ⟨e₀, he₀, hsettles⟩ := hsettled x hx
    obtain ⟨e₁, he₁, hcurrency, hbase⟩ := hsettles.exists_base
    obtain ⟨e₂, he₂, hfrom⟩ := hsettles.exists_account he₀
    have hregisters : s.Registers e.account := by
      rw [← haccount, ← hfrom]
      exact (ht e₂ he₂).registers
    rw [hlayer] at hbase
    refine ⟨hregisters, ⟨e₁, he₁, .base, by rw [hbase, Layer.decode?_of]⟩, fun hkind => ?_⟩
    have hown : e.account.currency = e₁.account.currency := by
      rw [← haccount, hsettles.currency_eq hkind he₀, hcurrency]
    exact .of hregisters
      (hbase.trans (by rw [hregisters.currencyId_eq (ht e₁ he₁).registers hown]))

theorem denominated_reversal (ht : ∀ e ∈ t.entries, e.Denominated s) :
    ∀ e ∈ (t.reversal reference).entries, e.Denominated s := by
  intro e he
  obtain ⟨e', he', rfl⟩ := List.mem_map.1 he
  exact (ht e' he').congr rfl rfl

end FromTransaction

/-! ## Resets -/

section Reset

variable {s : LedgerService} {journal : JournalId} {chart : Chart} {lookup : BalanceLookup}
  {reference : String} {t : Transaction}

/-- A reset posts on daily limit layers, each with the registered number of the currency of the
account. Only a bridge may have another number itself. -/
theorem denominated_dailyReset
    (h : s.dailyReset journal chart reference lookup = .ok (some t)) : ∀ e ∈ t.entries,
      (∃ id, s.currencies.id? e.account.currency = some id ∧
        e.layer.decode? = some (.dailyLimit, id)) ∧
      (s.Registers e.account ∨ chart.bridge? e.account.currency .asset = some e.account) := by
  intro e he
  obtain ⟨a, -, hregisters, hlayer, haccount⟩ := LedgerService.exists_of_dailyReset h he
  rw [hlayer, Layer.decode?_of]
  rcases haccount with rfl | hbridge
  · exact ⟨⟨_, hregisters, rfl⟩, .inl hregisters⟩
  · have hbridges : Chart.Bridges e.account a.currency .asset := by
      simpa using List.find?_some hbridge
    rw [hbridges.2]
    exact ⟨⟨_, hregisters, rfl⟩, .inr hbridge⟩

end Reset

/-! ## Wrong numbers -/

/-- The accounts and bridges that are looked at for a debit and a credit, in order. -/
def Chart.touched (chart : Chart) (r : EntryRequest) : List Account :=
  [r.debit, r.credit].filterMap (fun code => (chart.finalAccount code).toOption) ++
    [.asset, .liability].filterMap (chart.bridge? r.amount.currency)

theorem Chart.mem_touched {chart : Chart} {r : EntryRequest} {a : Account} :
    a ∈ chart.touched r ↔
      (chart.finalAccount r.debit = .ok a ∨ chart.finalAccount r.credit = .ok a) ∨
        ∃ role, chart.bridge? r.amount.currency role = some a := by
  have hok : ∀ x : Except LedgerError Account, x.toOption = some a ↔ x = .ok a := fun x => by
    cases x <;> simp [Except.toOption]
  have hrole : (∃ role, chart.bridge? r.amount.currency role = some a) ↔
      chart.bridge? r.amount.currency .asset = some a ∨
        chart.bridge? r.amount.currency .liability = some a := by
    constructor
    · rintro ⟨_ | _, h⟩
      · exact .inl h
      · exact .inr h
    · rintro (h | h) <;> exact ⟨_, h⟩
  rw [hrole]
  simp [touched, hok]

/-- An account for a debit and a credit is missing, or a currency is not registered. -/
def LedgerService.Lacks (s : LedgerService) (chart : Chart) (r : EntryRequest) (e : LedgerError) :
    Prop :=
  chart.finalAccount r.debit = .error e ∨ chart.finalAccount r.credit = .error e ∨
    ∃ currency ∈ r.amount.currency :: (chart.touched r).map Account.currency,
      s.currencies.idOf currency = .error e

namespace LedgerService

variable {s : LedgerService} {chart : Chart} {lookup : BalanceLookup} {reference : String}

/-- Every account that is looked at has the right number. -/
theorem registers_of_plan {r : EntryRequest} {p : EntryPlan} (h : s.plan chart r = .ok p) :
    ∀ a ∈ chart.touched r, s.Registers a := by
  obtain ⟨debit, hdebit, h⟩ := bind_eq_ok.1 h
  obtain ⟨credit, hcredit, h⟩ := bind_eq_ok.1 h
  obtain ⟨currency, -, h⟩ := bind_eq_ok.1 h
  obtain ⟨asset?, hasset, h⟩ := bind_eq_ok.1 h
  obtain ⟨liability?, hliability, -⟩ := bind_eq_ok.1 h
  obtain ⟨hdebit, hdebitr⟩ := registeredAccount_eq_ok.1 hdebit
  obtain ⟨hcredit, hcreditr⟩ := registeredAccount_eq_ok.1 hcredit
  obtain ⟨rfl, hassetr⟩ := registeredBridge_eq_ok hasset
  obtain ⟨rfl, hliabilityr⟩ := registeredBridge_eq_ok hliability
  intro a ha
  rcases Chart.mem_touched.1 ha with (ha | ha) | ⟨role, ha⟩
  · exact Except.ok.inj (hdebit.symm.trans ha) ▸ hdebitr
  · exact Except.ok.inj (hcredit.symm.trans ha) ▸ hcreditr
  · cases role with
    | asset => exact hassetr a ha
    | liability => exact hliabilityr a ha

theorem registeredAccount_eq_error {code : String} {e : LedgerError}
    (h : s.registeredAccount chart code = .error e) : chart.finalAccount code = .error e ∨
      ∃ a, chart.finalAccount code = .ok a ∧ s.registeredId a = .error e := by
  rcases bind_eq_error.1 h with h | ⟨a, ha, h⟩
  · exact .inl h
  · rcases bind_eq_error.1 h with h | ⟨id, -, h⟩
    · exact .inr ⟨a, ha, h⟩
    · cases h

theorem registeredBridge_eq_error {currency : CurrencyCode} {role : BridgeRole} {e : LedgerError}
    (h : s.registeredBridge chart currency role = .error e) :
    ∃ a, chart.bridge? currency role = some a ∧ s.registeredId a = .error e := by
  unfold registeredBridge at h
  split at h
  · cases h
  · rename_i a ha
    rcases bind_eq_error.1 h with h | ⟨id, -, h⟩
    · exact ⟨a, ha, h⟩
    · cases h

/-- A number is wrong, or something is missing. -/
theorem plan_eq_error {r : EntryRequest} {e : LedgerError} (h : s.plan chart r = .error e) :
    (∃ a ∈ chart.touched r, s.mismatch? a = some e) ∨ s.Lacks chart r e := by
  have hnumber : ∀ a ∈ chart.touched r, s.registeredId a = .error e →
      (∃ a ∈ chart.touched r, s.mismatch? a = some e) ∨ s.Lacks chart r e := fun a ha h =>
    (registeredId_eq_error.1 h).imp (fun h => ⟨a, ha, h⟩) fun h => .inr (.inr
      ⟨a.currency, List.mem_cons_of_mem _ (List.mem_map_of_mem ha), h⟩)
  rcases bind_eq_error.1 h with h | ⟨debit, -, h⟩
  · rcases registeredAccount_eq_error h with h | ⟨a, ha, h⟩
    · exact .inr (.inl h)
    · exact hnumber a (Chart.mem_touched.2 (.inl (.inl ha))) h
  rcases bind_eq_error.1 h with h | ⟨credit, -, h⟩
  · rcases registeredAccount_eq_error h with h | ⟨a, ha, h⟩
    · exact .inr (.inr (.inl h))
    · exact hnumber a (Chart.mem_touched.2 (.inl (.inr ha))) h
  rcases bind_eq_error.1 h with h | ⟨currency, -, h⟩
  · exact .inr (.inr (.inr ⟨_, List.mem_cons_self, h⟩))
  rcases bind_eq_error.1 h with h | ⟨asset?, -, h⟩
  · obtain ⟨a, ha, h⟩ := registeredBridge_eq_error h
    exact hnumber a (Chart.mem_touched.2 (.inr ⟨_, ha⟩)) h
  rcases bind_eq_error.1 h with h | ⟨liability?, -, h⟩
  · obtain ⟨a, ha, h⟩ := registeredBridge_eq_error h
    exact hnumber a (Chart.mem_touched.2 (.inr ⟨_, ha⟩)) h
  · cases h

/-- Whoever creates a transaction is told of a wrong number, unless something is missing. -/
theorem create_of_mismatch {request : TransactionRequest} {r : EntryRequest}
    (hr : r ∈ request.entries) {a : Account} (ha : a ∈ chart.touched r)
    (hwrong : s.mismatch? a ≠ none) : ∃ e, s.create request chart lookup = .error (.error e) ∧
      ∃ r ∈ request.entries, (∃ a ∈ chart.touched r, s.mismatch? a = some e) ∨
        s.Lacks chart r e := by
  cases hplans : request.entries.mapM (s.plan chart) with
  | ok plans =>
    obtain ⟨p, -, hp⟩ := exists_of_mapM_eq_ok hplans hr
    exact absurd (registers_of_plan hp a ha).mismatch?_eq_none hwrong
  | error e =>
    obtain ⟨r', hr', hplan⟩ := exists_of_mapM_eq_error hplans
    have hbuild : s.build request chart = .error e := by
      unfold build
      rw [if_neg (by simp [List.ne_nil_of_mem hr]), hplans]
      rfl
    refine ⟨e, ?_, r', hr', plan_eq_error hplan⟩
    rw [create, approve, draft, hbuild]
    rfl

/-- Whoever completes a transaction is told of a wrong number on it. -/
theorem complete_of_mismatch {t : Transaction} (hopen : t.isCompleted = false) {e : Entry}
    (he : e ∈ t.entries) (hwrong : s.mismatch? e.account ≠ none) :
    ∃ error, s.complete t reference lookup = (.error (.error error), t) ∧
      ∃ e ∈ t.entries, s.mismatch? e.account = some error ∨
        s.currencies.idOf e.account.currency = .error error := by
  cases hlayers : s.baseLayersOf t with
  | ok layers =>
    exact absurd (registers_of_baseLayersOf hlayers he).mismatch?_eq_none hwrong
  | error error =>
    obtain ⟨e', he', hfails⟩ := exists_of_mapM_eq_error hlayers
    have hid : s.registeredId e'.account = .error error := by
      unfold baseLayerFor at hfails
      cases hid : s.registeredId e'.account with
      | ok id => simp [hid, Except.map] at hfails
      | error error' => simpa [hid, Except.map] using hfails
    have hbuild : s.buildCompletion t reference = .error error := by
      unfold buildCompletion
      rw [hlayers]
      rfl
    refine ⟨error, ?_, e', he', registeredId_eq_error.1 hid⟩
    rw [complete_of_not_completed hopen, approve_completionDraft_of_error hbuild]

/-- Whoever resets usage is told of a wrong number of an account that can have some, unless
another account cannot be reset for another reason. -/
theorem dailyReset_of_mismatch {journal : JournalId} {a : Account} (ha : a ∈ usageAccounts chart)
    (hwrong : s.mismatch? a ≠ none) : ∃ f, s.dailyReset journal chart reference lookup = .error f ∧
      ∃ b ∈ usageAccounts chart, (∃ e, s.mismatch? b = some e ∧ f = .error e) ∨
        s.mismatch? b = none ∧ s.resetSpecs journal chart lookup b = .error f := by
  cases hspecs : (usageAccounts chart).mapM (s.resetSpecs journal chart lookup) with
  | ok specs =>
    obtain ⟨legs, -, hlegs⟩ := exists_of_mapM_eq_ok hspecs ha
    exact absurd (exists_usageReset hlegs).1.mismatch?_eq_none hwrong
  | error f =>
    obtain ⟨b, hb, hfails⟩ := exists_of_mapM_eq_error hspecs
    refine ⟨f, bind_eq_error.2 (.inl hspecs), b, hb, ?_⟩
    cases hmismatch : s.mismatch? b with
    | none => exact .inr ⟨rfl, hfails⟩
    | some e =>
      have hfails' : s.resetSpecs journal chart lookup b = .error (.error e) := by
        unfold resetSpecs
        rw [registeredId_eq_error.2 (.inl hmismatch)]
        rfl
      exact .inl ⟨e, rfl, Except.error.inj (hfails.symm.trans hfails')⟩

end LedgerService

/-! ## The main result -/

/-- **Numbers of currencies are checked, but for the bridge of a reset.** Every entry of a created
transaction, and of a reversal of it, is on an account with the registered number of its currency
and on a layer in that currency. The entries of a completion are on accounts with the registered
number, on layers in the currencies of its transaction; they are in the currency of their account
if the chart is tidy and the metadata are plain, or if there is one currency only. The entries of a
reset are on daily limit layers with the registered number of the currency of their account, which
has that number too unless it is an asset bridge.

A wrong number is an error of the call that looks at it, unless the call fails for another reason
first: of creation, for the accounts and bridges of the request; of completion, for the accounts of
the transaction; of a reset, for the accounts that can have usage. -/
theorem currency_numbers_checked (s : LedgerService) (chart : Chart) :
    (∀ request lookup t, s.create request chart lookup = .ok t →
      (∀ e ∈ t.entries, e.Denominated s) ∧
      ∀ version : Transaction, version.IsVersionOf t → ∀ reference answers after,
        (∀ r, s.reverse version reference answers = (.ok (.reversed r), after) →
          ∀ e ∈ r.entries, e.Denominated s) ∧
        ∀ c, s.complete version reference answers = (.ok (.completed c), after) →
          (∀ e ∈ c.entries, s.Registers e.account ∧
            ∃ e' ∈ t.entries, ∃ band, e.layer.decode? = some (band, e'.account.currencyId)) ∧
          ((chart.IsTidy ∧ request.metadata.IsPlain ∨
              ∃ currency, ∀ r ∈ request.entries, r.amount.currency = currency) →
            ∀ e ∈ c.entries, e.Denominated s)) ∧
    (∀ journal reference lookup t,
      s.dailyReset journal chart reference lookup = .ok (some t) → ∀ e ∈ t.entries,
        (∃ id, s.currencies.id? e.account.currency = some id ∧
          e.layer.decode? = some (.dailyLimit, id)) ∧
        (s.Registers e.account ∨ chart.bridge? e.account.currency .asset = some e.account) ∧
        (s.Registers e.account → e.Denominated s)) ∧
    (∀ request lookup, ∀ r ∈ request.entries, ∀ a ∈ chart.touched r, s.mismatch? a ≠ none →
      ∃ error, s.create request chart lookup = .error (.error error) ∧
        ∃ r ∈ request.entries, (∃ a ∈ chart.touched r, s.mismatch? a = some error) ∨
          s.Lacks chart r error) ∧
    (∀ t reference lookup, t.isCompleted = false → ∀ e ∈ t.entries, s.mismatch? e.account ≠ none →
      ∃ error, s.complete t reference lookup = (.error (.error error), t) ∧
        ∃ e ∈ t.entries, s.mismatch? e.account = some error ∨
          s.currencies.idOf e.account.currency = .error error) ∧
    ∀ journal reference lookup, ∀ a ∈ usageAccounts chart, s.mismatch? a ≠ none →
      ∃ f, s.dailyReset journal chart reference lookup = .error f ∧
        ∃ b ∈ usageAccounts chart, (∃ error, s.mismatch? b = some error ∧ f = .error error) ∨
          s.mismatch? b = none ∧ s.resetSpecs journal chart lookup b = .error f := by
  refine ⟨fun request lookup t hcreate => ?_, fun journal reference lookup t hreset e he => ?_,
    fun request lookup r hr a ha => LedgerService.create_of_mismatch hr ha,
    fun t reference lookup hopen e he => LedgerService.complete_of_mismatch hopen he,
    fun journal reference lookup a ha => LedgerService.dailyReset_of_mismatch ha⟩
  · obtain ⟨-, strategy, plans, hd⟩ := LedgerService.exists_isDraft_of_create hcreate
    refine ⟨fun e he => hd.denominated he, fun version hversion reference answers after => ?_⟩
    have hentries : ∀ e ∈ version.entries, e.Denominated s := fun e he =>
      hd.denominated (hversion.entries ▸ he)
    refine ⟨fun r hr => ?_, fun c hc => ?_⟩
    · obtain ⟨-, hr, -⟩ := LedgerService.reverse_eq_reversed.1 hr
      rw [LedgerService.eq_of_approve_reversal hr]
      exact denominated_reversal hentries
    · obtain ⟨-, hc, -⟩ := LedgerService.complete_eq_completed.1 hc
      have hposted := denominated_buildCompletion hentries
        (LedgerService.approve_completionDraft.1 hc).1
      refine ⟨fun e he => ?_, fun hcurrencies e he => (hposted e he).2.2 ?_⟩
      · obtain ⟨hregisters, hlayer, -⟩ := hposted e he
        rw [hversion.entries] at hlayer
        exact ⟨hregisters, hlayer⟩
      · have hkind : t.PaysInKind := by
          rcases hcurrencies with ⟨ht, hm⟩ | ⟨currency, hsingle⟩
          · exact hd.paysInKind ht hm
          · exact hd.paysInKind_of_single hsingle
        exact hkind.version hversion
  · obtain ⟨⟨id, hid, hlayer⟩, haccount⟩ := denominated_dailyReset hreset e he
    refine ⟨⟨id, hid, hlayer⟩, haccount, fun hregisters => ⟨hregisters, .dailyLimit, ?_⟩⟩
    rw [hlayer, Option.some.inj (hid.symm.trans hregisters)]

open SmallLedger in
/-- A deposit and its completion, and a reset. -/
theorem currency_numbers_checked_smallLedger : ∃ t c r,
    service.create (deposit 40) chart silent = .ok t ∧
    (service.complete t "T2" silent).1 = .ok (.completed c) ∧
    service.dailyReset journal chart "R1" usedTen.lookup = .ok (some r) ∧
    (∀ e ∈ t.entries, e.Denominated service) ∧ (∀ e ∈ c.entries, e.Denominated service) ∧
    ∀ e ∈ r.entries, e.Denominated service := by
  obtain ⟨t, c, t', ht, hc⟩ := exists_completed (by decide +kernel : settles (deposit 40) = true)
  obtain ⟨r?, hreset, h⟩ := bind_eq_ok.1 (by decide +kernel : (do
    let r? ← service.dailyReset journal chart "R1" usedTen.lookup
    match r? with
    | none => return false
    | some r => return decide (∀ e ∈ r.entries, service.Registers e.account)) =
      (.ok true : Except Failure Bool))
  obtain ⟨hcreated, hreturned, -⟩ := currency_numbers_checked service chart
  obtain ⟨hentries, hlater⟩ := hcreated (deposit 40) silent t ht
  have hcompleted := (hlater t (.refl t) "T2" silent t').2 c hc
  have htidy : chart.IsTidy := Chart.isTidy_ofList (by decide +kernel)
  cases r? with
  | none => cases h
  | some r =>
    have hregistered := of_decide_eq_true (Except.ok.inj h)
    exact ⟨t, c, r, ht, congrArg Prod.fst hc, hreset, hentries,
      hcompleted.2 (.inl ⟨htidy, by decide +kernel⟩),
      fun e he => (hreturned journal "R1" usedTen.lookup r hreset e he).2.2 (hregistered e he)⟩

open SmallLedger in
/-- A reset posts to an asset bridge that has another number than the registry. -/
theorem bridge_number_unchecked :
    ¬∀ (s : LedgerService) (journal : JournalId) (chart : Chart) (reference : String)
      (lookup : BalanceLookup) (t : Transaction),
      s.dailyReset journal chart reference lookup = .ok (some t) →
        ∀ e ∈ t.entries, e.Denominated s := by
  intro hall
  let other : Account := { assetBridge with currencyId := ⟨2, by decide⟩ }
  obtain ⟨r?, hreset, h⟩ := bind_eq_ok.1 (by decide +kernel : (do
    let r? ← service.dailyReset journal (.ofList [payer, other]) "R1" usedTen.lookup
    match r? with
    | none => return false
    | some r => return decide (∃ e ∈ r.entries, ¬service.Registers e.account)) =
      (.ok true : Except Failure Bool))
  cases r? with
  | none => cases h
  | some r =>
    obtain ⟨e, he, hwrong⟩ := of_decide_eq_true (Except.ok.inj h)
    exact hwrong (hall _ _ _ _ _ r hreset e he).registers

end LayeredLedger
