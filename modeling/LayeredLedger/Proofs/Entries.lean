import LayeredLedger.Proofs.Charts
import LayeredLedger.Proofs.Draft
import LayeredLedger.Proofs.TagLookup
import LayeredLedger.Service.Complete

/-!
# The entries of a created transaction

Every entry of a created transaction is a leg of a plan. Its account is the payer, the recipient
or a bridge of the plan, and its layer is in a band that the strategy uses. What completion reads
back from the entries is what creation wrote.

* `IsLegOf`, `Strategy.bands`, `Strategy.isLegOf`: legs and their plans;
* `IsDraft.registers`, `IsDraft.entry`: entries and their accounts;
* `IsDraft.baseLayersOf`, `IsDraft.baseLayerOf_entry`, `IsDraft.unwinds`: layers read back;
* `IsDraft.findAccount?_code`: accounts found again;
* **`IsDraft.shape`**: the shape read back from tags and layers.
-/

namespace LayeredLedger

/-! ## Legs -/

/-- The leg has the amount of a plan, an account of it, and its currency in one of some bands. -/
structure IsLegOf (p : EntryPlan) (bands : List Band) (x : EntrySpec) : Prop where
  amount : x.amount = p.amount
  account : x.account = p.debit ∨ x.account = p.credit ∨ ∃ role, p.bridge? role = some x.account
  layer : ∃ band ∈ bands, x.layer = p.layer band

/-- The bands on which a strategy posts. -/
def Strategy.bands : Strategy → List Band
  | direct => [.base, .fee, .dailyLimit, .cumulativeLimit]
  | pendingInbound | pendingBillPayment => [.base, .pending]

/-- What waits for completion uses no limit. -/
theorem Strategy.band_ne_limit {strategy : Strategy} (hs : strategy ≠ .direct) {band : Band}
    (hband : band ∈ strategy.bands) (kind : LimitKind) : band ≠ kind.band := by
  cases strategy with
  | direct => contradiction
  | pendingInbound | pendingBillPayment =>
    simp only [bands, List.mem_cons, List.not_mem_nil, or_false] at hband
    rcases hband with rfl | rfl <;> cases kind <;> decide

section Legs

variable {p : EntryPlan} {bands : List Band} {band : Band}

theorem transferLegs_isLegOf (hb : band ∈ bands) :
    ∀ x ∈ transferLegs p (p.layer band), IsLegOf p bands x := by
  intro x hx
  simp only [transferLegs, List.mem_cons, List.not_mem_nil, or_false] at hx
  rcases hx with rfl | rfl
  · exact ⟨rfl, .inl rfl, band, hb, rfl⟩
  · exact ⟨rfl, .inr (.inl rfl), band, hb, rfl⟩

theorem feeLegs_isLegOf (hb : .fee ∈ bands) : ∀ x ∈ feeLegs p, IsLegOf p bands x := by
  intro x hx
  unfold feeLegs at hx
  split at hx
  · obtain ⟨y, hy, rfl⟩ := List.mem_map.1 hx
    obtain ⟨hamount, haccount, hlayer⟩ := transferLegs_isLegOf hb y hy
    exact ⟨hamount, haccount, hlayer⟩
  · simp at hx

theorem usageOn_isLegOf {bridge : Account} (hbridge : p.bridge? .asset = some bridge)
    (hb : band ∈ bands) : ∀ x ∈ usageOn p bridge (p.layer band), IsLegOf p bands x := by
  intro x hx
  simp only [usageOn, List.mem_cons, List.not_mem_nil, or_false] at hx
  rcases hx with rfl | rfl
  · exact ⟨rfl, .inr (.inr ⟨.asset, hbridge⟩), band, hb, rfl⟩
  · exact ⟨rfl, .inl rfl, band, hb, rfl⟩

theorem usageLegs_isLegOf (hd : .dailyLimit ∈ bands) (hc : .cumulativeLimit ∈ bands) :
    ∀ x ∈ usageLegs p, IsLegOf p bands x := by
  intro x hx
  unfold usageLegs at hx
  split at hx
  · cases hbridge : p.assetBridge? with
    | none => simp [hbridge] at hx
    | some bridge =>
      simp only [hbridge, List.mem_append] at hx
      rcases hx with hx | hx
      · exact usageOn_isLegOf hbridge hd x hx
      · exact usageOn_isLegOf hbridge hc x hx
  · simp at hx

theorem intoBridge_isLegOf {liability : Account} {tags : Tags}
    (hl : p.bridge? .liability = some liability) (hb : .base ∈ bands) :
    ∀ x ∈ intoBridge p liability tags, IsLegOf p bands x := by
  intro x hx
  simp only [intoBridge, List.mem_cons, List.not_mem_nil, or_false] at hx
  rcases hx with rfl | rfl
  · exact ⟨rfl, .inl rfl, .base, hb, rfl⟩
  · exact ⟨rfl, .inr (.inr ⟨.liability, hl⟩), .base, hb, rfl⟩

/-- The two accounts next to the recipient may be bridges or the payer. -/
theorem pendingLegs_isLegOf {asset liability : Account} {tags? : Option Tags}
    (ha : asset = p.debit ∨ p.bridge? .asset = some asset)
    (hl : liability = p.debit ∨ p.bridge? .liability = some liability) (hb : .pending ∈ bands) :
    ∀ x ∈ pendingLegs p asset liability tags?, IsLegOf p bands x := by
  have ha : asset = p.debit ∨ asset = p.credit ∨ ∃ role, p.bridge? role = some asset :=
    ha.imp id fun h => .inr ⟨.asset, h⟩
  have hl : liability = p.debit ∨ liability = p.credit ∨ ∃ role, p.bridge? role = some liability :=
    hl.imp id fun h => .inr ⟨.liability, h⟩
  intro x hx
  unfold pendingLegs at hx
  split at hx
  · simp only [List.mem_cons, List.not_mem_nil, or_false] at hx
    rcases hx with rfl | rfl | rfl | rfl
    · exact ⟨rfl, ha, .pending, hb, rfl⟩
    · exact ⟨rfl, hl, .pending, hb, rfl⟩
    · exact ⟨rfl, hl, .pending, hb, rfl⟩
    · exact ⟨rfl, .inr (.inl rfl), .pending, hb, rfl⟩
  · simp only [List.mem_cons, List.not_mem_nil, or_false] at hx
    rcases hx with rfl | rfl
    · exact ⟨rfl, .inr (.inl rfl), .pending, hb, rfl⟩
    · exact ⟨rfl, hl, .pending, hb, rfl⟩

theorem BillLegs.isLegOf {asset liability : Account} {legs : List EntrySpec}
    (h : BillLegs p asset liability legs) (ha : p.bridge? .asset = some asset)
    (hl : p.bridge? .liability = some liability) (hb : .base ∈ bands) (hp : .pending ∈ bands) :
    ∀ x ∈ legs, IsLegOf p bands x := by
  cases h with
  | amount =>
    intro x hx
    rcases List.mem_append.1 hx with hx | hx
    · exact intoBridge_isLegOf hl hb x hx
    · exact pendingLegs_isLegOf (.inr ha) (.inr hl) hp x hx
  | rebate => exact pendingLegs_isLegOf (.inr ha) (.inr hl) hp
  | commission => exact pendingLegs_isLegOf (.inl rfl) (.inr hl) hp
  | plainCommission => exact pendingLegs_isLegOf (.inr ha) (.inl rfl) hp
  | none => simp

/-- The leg of the recipient on the pending layer. -/
def recipientLeg (p : EntryPlan) (tags? : Option Tags) : EntrySpec :=
  { EntrySpec.untagged p.credit.side p.credit p.amount (p.layer .pending) p.request.detail with
    tags? }

theorem tags?_recipientLeg (p : EntryPlan) (tags? : Option Tags) :
    (recipientLeg p tags?).tags? = tags? := rfl

theorem recipientLeg_mem (p : EntryPlan) (asset liability : Account) (tags? : Option Tags) :
    recipientLeg p tags? ∈ pendingLegs p asset liability tags? := by
  unfold recipientLeg pendingLegs
  cases p.credit.side <;> simp [EntrySpec.debit, EntrySpec.credit]

/-- The recipient of a plan that waits for completion has a leg on the pending layer, unless the
plan has no legs. -/
theorem Strategy.exists_recipient {strategy : Strategy} {legs : List EntrySpec}
    (h : strategy.legs p = .ok legs) (hs : strategy ≠ .direct) (hne : legs ≠ []) :
    ∃ x ∈ legs, x.account = p.credit ∧ x.layer = p.layer .pending := by
  cases strategy with
  | direct => contradiction
  | pendingInbound =>
    obtain ⟨asset, liability, -, -, rfl⟩ := inboundLegs_eq_ok h
    exact ⟨recipientLeg p none, List.mem_append_right _ (recipientLeg_mem p asset liability _),
      rfl, rfl⟩
  | pendingBillPayment =>
    obtain ⟨asset, liability, -, -, hbill⟩ := billPaymentLegs_eq_ok h
    cases hbill with
    | amount =>
      exact ⟨recipientLeg p none, List.mem_append_right _ (recipientLeg_mem p asset liability _),
        rfl, rfl⟩
    | rebate => exact ⟨_, recipientLeg_mem p asset liability _, rfl, rfl⟩
    | commission => exact ⟨_, recipientLeg_mem p p.debit liability _, rfl, rfl⟩
    | plainCommission => exact ⟨_, recipientLeg_mem p asset p.debit _, rfl, rfl⟩
    | none => contradiction

theorem Strategy.isLegOf {strategy : Strategy} {legs : List EntrySpec}
    (h : strategy.legs p = .ok legs) : ∀ x ∈ legs, IsLegOf p strategy.bands x := by
  intro x hx
  cases strategy with
  | direct =>
    obtain rfl := Except.ok.inj h
    rcases List.mem_append.1 hx with hx | hx
    · rcases List.mem_append.1 hx with hx | hx
      · exact transferLegs_isLegOf (by simp [bands]) x hx
      · exact feeLegs_isLegOf (by simp [bands]) x hx
    · exact usageLegs_isLegOf (by simp [bands]) (by simp [bands]) x hx
  | pendingInbound =>
    obtain ⟨asset, liability, ha, hl, rfl⟩ := inboundLegs_eq_ok h
    rcases List.mem_append.1 hx with hx | hx
    · exact intoBridge_isLegOf hl (by simp [bands]) x hx
    · exact pendingLegs_isLegOf (.inr ha) (.inr hl) (by simp [bands]) x hx
  | pendingBillPayment =>
    obtain ⟨asset, liability, ha, hl, hbill⟩ := billPaymentLegs_eq_ok h
    exact hbill.isLegOf ha hl (by simp [bands]) (by simp [bands]) x hx

end Legs

/-! ## Accounts -/

namespace IsPlan

variable {s : LedgerService} {chart : Chart} {p : EntryPlan} (hp : IsPlan s chart p)

include hp

theorem lists_debit : chart.Lists p.debit ∧ p.debit.code = p.request.debit :=
  Chart.lists_of_account? (Chart.finalAccount_eq_ok hp.debit)

theorem lists_credit : chart.Lists p.credit ∧ p.credit.code = p.request.credit :=
  Chart.lists_of_account? (Chart.finalAccount_eq_ok hp.credit)

/-- The account of a leg has the registered number of the currency of the plan. -/
theorem registers {bands : List Band} {x : EntrySpec} (hx : IsLegOf p bands x) :
    s.Registers x.account ∧ x.account.currency = p.request.amount.currency ∧
      x.account.currencyId = p.currency := by
  have h : s.Registers x.account ∧ x.account.currency = p.request.amount.currency := by
    rcases hx.account with h | h | ⟨role, h⟩
    · rw [h]
      exact ⟨hp.debit_registered, hp.debit_currency⟩
    · rw [h]
      exact ⟨hp.credit_registered, hp.credit_currency⟩
    · exact ⟨hp.bridge_registered role _ h, (hp.bridge_currency h).2⟩
  exact ⟨h.1, h.2, hp.currencyId_eq h.1 h.2⟩

theorem account {bands : List Band} {x : EntrySpec} (hx : IsLegOf p bands x)
    (ht : chart.IsTidy) : chart.Lists x.account ∧ s.Registers x.account ∧
      x.account.currency = p.request.amount.currency ∧ x.account.currencyId = p.currency := by
  refine ⟨?_, hp.registers hx⟩
  rcases hx.account with h | h | ⟨role, h⟩
  · rw [h]
    exact hp.lists_debit.1
  · rw [h]
    exact hp.lists_credit.1
  · rw [hp.bridge role] at h
    exact ht.lists_bridge? h

end IsPlan

namespace IsDraft

variable {s : LedgerService} {request : TransactionRequest} {chart : Chart} {t : Transaction}
  {strategy : Strategy} {plans : List EntryPlan} (hd : IsDraft s request chart t strategy plans)

include hd

theorem exists_leg {e : Entry} (he : e ∈ t.entries) : ∃ p ∈ plans, ∃ x ∈ strategy.legsOf p,
    e = (request.blank t.journal).entryOf x := by
  rw [hd.entries] at he
  obtain ⟨x, hx, rfl⟩ := List.mem_map.1 he
  obtain ⟨p, hp, hx⟩ := List.mem_flatMap.1 hx
  exact ⟨p, hp, x, hx, rfl⟩

theorem mem_entries {p : EntryPlan} (hp : p ∈ plans) {x : EntrySpec} (hx : x ∈ strategy.legsOf p) :
    (request.blank t.journal).entryOf x ∈ t.entries := by
  rw [hd.entries]
  exact List.mem_map_of_mem (List.mem_flatMap.2 ⟨p, hp, hx⟩)

theorem isLegOf {p : EntryPlan} (hp : p ∈ plans) {x : EntrySpec} (hx : x ∈ strategy.legsOf p) :
    IsLegOf p strategy.bands x :=
  Strategy.isLegOf (hd.legs p hp) x hx

/-- Every entry is in the registered currency of its account, in a band of the strategy. -/
theorem registers {e : Entry} (he : e ∈ t.entries) : s.Registers e.account ∧
    ∃ band ∈ strategy.bands, e.layer = .of band e.account.currencyId := by
  obtain ⟨p, hp, x, hx, rfl⟩ := hd.exists_leg he
  have hleg := hd.isLegOf hp hx
  obtain ⟨hregistered, -, hid⟩ := (hd.plan p hp).registers hleg
  obtain ⟨band, hband, hlayer⟩ := hleg.layer
  refine ⟨hregistered, band, hband, ?_⟩
  change x.layer = .of band x.account.currencyId
  rw [hlayer, hid]
  rfl

theorem entry (ht : chart.IsTidy) {e : Entry} (he : e ∈ t.entries) : chart.Lists e.account ∧
    s.Registers e.account ∧ ∃ band ∈ strategy.bands, e.layer = .of band e.account.currencyId := by
  refine ⟨?_, hd.registers he⟩
  obtain ⟨p, hp, x, hx, rfl⟩ := hd.exists_leg he
  exact ((hd.plan p hp).account (hd.isLegOf hp hx) ht).1

/-- The account of an entry is found again under its code. -/
theorem findAccount?_code (ht : chart.IsTidy) {e : Entry} (he : e ∈ t.entries) :
    findAccount? t e.account.code = some e.account := by
  unfold findAccount?
  cases h : t.entries.find? fun x => decide (x.account.code = e.account.code) with
  | none => simpa using List.find?_eq_none.1 h e he
  | some x =>
    have hcode : x.account.code = e.account.code := by simpa using List.find?_some h
    have hx := (hd.entry ht (List.mem_of_find?_eq_some h)).1
    rw [Option.map_some, hx.eq_of_code (hd.entry ht he).1 hcode]

end IsDraft

/-! ## Layers -/

theorem Layer.isInBand_of (band other : Band) (id : CurrencyId) :
    (Layer.of band id).isInBand other = decide (band = other) := by
  have hlt := id.value_lt
  unfold bandWidth at hlt
  have h : (Layer.of band id).isInBand other = true ↔ band = other := by
    unfold Layer.isInBand bandWidth
    rw [Bool.and_eq_true, decide_eq_true_iff, decide_eq_true_iff, Layer.value_of]
    cases band <;> cases other <;>
      simp only [Band.offset, reduceCtorEq, iff_true, iff_false] <;> omega
  rw [Bool.eq_iff_iff, h, decide_eq_true_iff]

theorem Layer.of_injective {band band' : Band} {id id' : CurrencyId}
    (h : Layer.of band id = .of band' id') : band = band' ∧ id = id' := by
  have h := congrArg Layer.decode? h
  simpa using h

/-- The base layers that the entries of a transaction are read back to have. -/
def Transaction.readLayers (t : Transaction) : BaseLayers :=
  t.entries.map fun e => (e.account.currency, Layer.of .base e.account.currencyId)

theorem mem_unwoundLayers {t : Transaction} {layer : Layer} :
    layer ∈ unwoundLayers t.readLayers ↔
      ∃ e ∈ t.entries, ∃ band ∈ Band.unwound, layer = .of band e.account.currencyId := by
  simp only [unwoundLayers, Transaction.readLayers, List.mem_flatMap, List.mem_map]
  constructor
  · rintro ⟨_, ⟨e, he, rfl⟩, band, hband, rfl⟩
    exact ⟨e, he, band, hband, by simp [Layer.withBand]⟩
  · rintro ⟨e, he, band, hband, rfl⟩
    exact ⟨_, ⟨e, he, rfl⟩, band, hband, by simp [Layer.withBand]⟩

namespace IsDraft

variable {s : LedgerService} {request : TransactionRequest} {chart : Chart} {t : Transaction}
  {strategy : Strategy} {plans : List EntryPlan} (hd : IsDraft s request chart t strategy plans)

include hd

theorem baseLayersOf : s.baseLayersOf t = .ok t.readLayers :=
  mapM_eq_ok_map fun e he => by
    unfold LedgerService.baseLayerFor
    rw [LedgerService.registeredId_eq_ok.2 ⟨(hd.registers he).1, rfl⟩]
    rfl

/-- The base layer of the currency of an entry is found again. -/
theorem baseLayerOf_entry {e : Entry} (he : e ∈ t.entries) :
    baseLayerOf e t.readLayers = .ok (.of .base e.account.currencyId) := by
  unfold baseLayerOf BaseLayers.get?
  cases h : t.readLayers.find? fun c => decide (c.1 = e.account.currency) with
  | none =>
    have := List.find?_eq_none.1 h _ (List.mem_map_of_mem he)
    simp at this
  | some c =>
    obtain ⟨e', he', rfl⟩ := List.mem_map.1 (List.mem_of_find?_eq_some h)
    have hcurrency : e'.account.currency = e.account.currency := by
      simpa using List.find?_some h
    have hr' := (hd.registers he').1
    rw [LedgerService.Registers, hcurrency, (hd.registers he).1] at hr'
    simp [Option.some.inj hr']

/-- The layers of entries that are unwound are those outside of the base band. -/
theorem unwinds {e : Entry} (he : e ∈ t.entries) :
    e.layer ∈ unwoundLayers t.readLayers ↔ e.layer.isInBand .base = false := by
  obtain ⟨-, band, -, hlayer⟩ := hd.registers he
  rw [hlayer, Layer.isInBand_of, mem_unwoundLayers]
  constructor
  · rintro ⟨e', -, band', hband', h⟩
    rw [(Layer.of_injective h).1]
    cases band' <;> simp_all [Band.unwound]
  · intro h
    exact ⟨e, he, band, by cases band <;> simp_all [Band.unwound], rfl⟩

/-- A transaction waits for completion exactly if it touches the pending layers. -/
theorem touches_pending (ht : chart.IsTidy) (hne : t.entries ≠ []) :
    t.touches .pending = decide (strategy ≠ .direct) := by
  by_cases hs : strategy = .direct
  · have h : t.touches .pending = false := by
      refine List.any_eq_false.2 fun e he => ?_
      obtain ⟨-, -, band, hband, hlayer⟩ := hd.entry ht he
      rw [hlayer, Layer.isInBand_of]
      subst hs
      intro h
      rw [of_decide_eq_true h] at hband
      simp [Strategy.bands] at hband
    simp [h, hs]
  · have h : t.touches .pending = true := by
      obtain ⟨e, he⟩ := List.exists_mem_of_ne_nil _ hne
      obtain ⟨p, hp, x, hx, -⟩ := hd.exists_leg he
      obtain ⟨y, hy, -, hlayer⟩ := Strategy.exists_recipient (hd.legs p hp) hs
        (List.ne_nil_of_mem hx)
      refine List.any_eq_true.2 ⟨_, hd.mem_entries hp hy, ?_⟩
      change y.layer.isInBand .pending = true
      rw [hlayer]
      simp [EntryPlan.layer, Layer.isInBand_of]
    simp [h, hs]

end IsDraft

/-! ## Tags -/

/-- At most one strategy takes a shape, so their order does not matter. -/
theorem strategyFor?_eq_some {shape : TransactionShape} {strategy : Strategy} :
    strategyFor? shape = some strategy ↔ strategy.takes shape = true := by
  obtain ⟨pending, group, type⟩ := shape
  unfold strategyFor? Strategy.all
  simp only [List.find?]
  cases pending <;> cases group <;> cases strategy <;> simp [Strategy.takes]

theorem pair?_creditTag (code : String) :
    pair? (creditTag code) = some ("credit", Text.trim code) :=
  pair?_append code (by decide) (by decide) (by decide)

theorem pair?_debitTag (code : String) : pair? (debitTag code) = some ("debit", Text.trim code) :=
  pair?_append code (by decide) (by decide) (by decide)

theorem pair?_kindTag (kind : EntryKind) :
    pair? (kindTag kind) = some ("type", Text.trim kind.name) :=
  pair?_append kind.name (by decide) (by decide) (by decide)

theorem pair?_groupTag (name : String) :
    pair? ("group:" ++ name) = some ("group", Text.trim name) :=
  pair?_append name (by decide) (by decide) (by decide)

theorem pair?_typeTag (type : String) : pair? ("type:" ++ type) = some ("type", Text.trim type) :=
  pair?_append type (by decide) (by decide) (by decide)

namespace IsDraft

variable {s : LedgerService} {request : TransactionRequest} {chart : Chart} {t : Transaction}
  {strategy : Strategy} {plans : List EntryPlan} (hd : IsDraft s request chart t strategy plans)
  (hm : request.metadata.IsPlain)

include hd hm

theorem get?_group : t.tags.get? "group" = some (Text.trim request.shape.group.name) := by
  have hnone := hm.get?_tags (by decide : "group" ∈ reservedKeys)
  rw [hd.tags, Tags.get?_add_of_ne (by simp [pair?_typeTag]),
    Tags.get?_add_self (pair?_groupTag _) hnone]

theorem get?_type : t.tags.get? "type" = some (Text.trim request.shape.type) := by
  have hnone := hm.get?_tags (by decide : "type" ∈ reservedKeys)
  rw [hd.tags, Tags.get?_add_self (pair?_typeTag _)]
  rw [Tags.get?_add_of_ne (by simp [pair?_groupTag]), hnone]

theorem isCompleted : t.isCompleted = false := by
  have hnone := hm.get?_tags (by decide : "completed" ∈ reservedKeys)
  have hget : t.tags.get? "completed" = none := by
    rw [hd.tags, Tags.get?_add_of_ne (by simp [pair?_typeTag]),
      Tags.get?_add_of_ne (by simp [pair?_groupTag]), hnone]
  have hpair : pair? Transaction.completedMark = some ("completed", "true") := by decide
  exact decide_eq_false fun hmem => Tags.get?_eq_none.1 hget _ hmem _ hpair

/-- **The shape is read back**, its texts without the blanks around them. -/
theorem shape (ht : chart.IsTidy) (hne : t.entries ≠ []) :
    t.shape = .ok ⟨decide (strategy ≠ .direct), .ofName (Text.trim request.shape.group.name),
      Text.trim request.shape.type⟩ := by
  have hgroup : requiredTag t .group = .ok (Text.trim request.shape.group.name) := by
    simp only [requiredTag, TagKey.name, hd.get?_group hm]
  have htype : requiredTag t .type = .ok (Text.trim request.shape.type) := by
    simp only [requiredTag, TagKey.name, hd.get?_type hm]
  rw [Transaction.shape, hgroup, htype, hd.touches_pending ht hne]
  rfl

/-- The strategy that built a transaction is found again. -/
theorem chooseStrategy_eq (ht : chart.IsTidy) (hne : t.entries ≠ []) (fallBack : Bool) :
    t.shape >>= chooseStrategy fallBack = .ok strategy := by
  have htakes := strategyFor?_eq_some.1 hd.strategy_eq
  have hinbound : TransactionGroup.ofName (Text.trim TransactionGroup.inbound.name) = .inbound := by
    decide
  have hbill : TransactionGroup.ofName (Text.trim TransactionGroup.billPayment.name) =
      .billPayment := by
    decide
  have hback : strategy.takes ⟨decide (strategy ≠ .direct),
      .ofName (Text.trim request.shape.group.name), Text.trim request.shape.type⟩ = true := by
    cases strategy with
    | direct => rfl
    | pendingInbound =>
      have hgroup : request.shape.group = .inbound := by simp_all [Strategy.takes]
      simp [Strategy.takes, hgroup, hinbound]
    | pendingBillPayment =>
      have hgroup : request.shape.group = .billPayment := by simp_all [Strategy.takes]
      simp [Strategy.takes, hgroup, hbill]
  rw [hd.shape hm ht hne]
  change chooseStrategy fallBack _ = _
  rw [chooseStrategy, strategyFor?_eq_some.2 hback]

end IsDraft

end LayeredLedger
