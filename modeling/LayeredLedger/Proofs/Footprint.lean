import LayeredLedger.Proofs.Entries
import LayeredLedger.Proofs.Operations

/-!
# Footprints

Operations invent no accounts. A created transaction and a reset post to accounts of the chart
they are made from, a completion and a reversal to accounts of the transaction they are about.
Besides what it takes back, a completion posts on base layers only.

* `Chart.Within`, `Transaction.Within`: charts and transactions whose accounts are among some;
* `IsDraft.within`, `IsDraft.holdsBalances`: accounts of created transactions;
* `SettlesEntry`, `Strategy.settlement_eq_ok`: accounts and layers of settling movements;
* **`buildCompletion_eq_ok`**: a completion takes back what is not on base layers, and settles;
* `buildCompletion_within`, `Transaction.Within.reversal`, `exists_of_dailyReset`,
  `dailyReset_within`: their accounts.
-/

namespace LayeredLedger

/-! ## Charts -/

/-- The accounts and the bridges of the chart are among some accounts. -/
structure Chart.Within (chart : Chart) (known : Set Account) : Prop where
  account : ∀ a ∈ chart.accounts.toList, a ∈ known
  bridge : ∀ b ∈ chart.bridges, b ∈ known

/-- The accounts that the transaction posts to are among some accounts. -/
def Transaction.Within (t : Transaction) (known : Set Account) : Prop :=
  ∀ e ∈ t.entries, e.account ∈ known

namespace Chart

theorem Within.add {chart : Chart} {known : Set Account} (h : chart.Within known) {a : Account}
    (ha : a ∈ known) : (chart.add a).Within known where
  account x hx := by
    rcases Keyed.mem_insert.1 hx with rfl | ⟨hx, -⟩
    · exact ha
    · exact h.account x hx
  bridge b hb := by
    rcases mem_bridges_add hb with rfl | hb
    · exact ha
    · exact h.bridge b hb

theorem within_ofList {accounts : List Account} {known : Set Account}
    (h : ∀ a ∈ accounts, a ∈ known) : (ofList accounts).Within known := by
  induction accounts using List.reverseRecOn with
  | nil => exact ⟨nofun, nofun⟩
  | append_singleton l a ih =>
    rw [ofList_append]
    exact (ih fun x hx => h x (by simp [hx])).add (h a (by simp))

variable {chart : Chart} {known : Set Account} (h : chart.Within known)

include h

theorem Within.account? {code : String} {a : Account} (ha : chart.account? code = some a) :
    a ∈ known :=
  h.account a (Keyed.get?_eq_some_iff.1 ha).1

theorem Within.bridge? {currency : CurrencyCode} {role : BridgeRole} {b : Account}
    (hb : chart.bridge? currency role = some b) : b ∈ known :=
  h.bridge b (List.mem_of_find?_eq_some hb)

end Chart

/-! ## Created transactions -/

theorem Account.holdsBalances_of_bridge {a : Account} {role : BridgeRole}
    (h : a.kind = .bridge role) : a.holdsBalances = true := by
  simp [holdsBalances, h]

namespace IsPlan

variable {s : LedgerService} {chart : Chart} {p : EntryPlan} (hp : IsPlan s chart p)
  {bands : List Band} {x : EntrySpec} (hx : IsLegOf p bands x)

include hp hx

theorem within {known : Set Account} (hchart : chart.Within known) : x.account ∈ known := by
  rcases hx.account with h | h | ⟨role, h⟩
  · rw [h]
    exact hchart.account? (Chart.finalAccount_eq_ok hp.debit)
  · rw [h]
    exact hchart.account? (Chart.finalAccount_eq_ok hp.credit)
  · rw [hp.bridge role] at h
    exact hchart.bridge? h

theorem holdsBalances : x.account.holdsBalances = true := by
  rcases hx.account with h | h | ⟨role, h⟩
  · rw [h]
    exact (Chart.finalAccount_eq_ok_iff.1 hp.debit).2
  · rw [h]
    exact (Chart.finalAccount_eq_ok_iff.1 hp.credit).2
  · exact Account.holdsBalances_of_bridge (hp.bridge_currency h).1

end IsPlan

namespace IsDraft

variable {s : LedgerService} {request : TransactionRequest} {chart : Chart} {t : Transaction}
  {strategy : Strategy} {plans : List EntryPlan} (hd : IsDraft s request chart t strategy plans)

include hd

theorem within {known : Set Account} (hchart : chart.Within known) : t.Within known := by
  intro e he
  obtain ⟨p, hp, x, hx, rfl⟩ := hd.exists_leg he
  exact (hd.plan p hp).within (hd.isLegOf hp hx) hchart

theorem holdsBalances {e : Entry} (he : e ∈ t.entries) : e.account.holdsBalances = true := by
  obtain ⟨p, hp, x, hx, rfl⟩ := hd.exists_leg he
  exact (hd.plan p hp).holdsBalances (hd.isLegOf hp hx)

end IsDraft

/-! ## Completions -/

/-- The entry is tagged with an account to credit or to debit. -/
def Entry.Names (e : Entry) (code : String) : Prop :=
  e.tags.get? "credit" = some code ∨ e.tags.get? "debit" = some code

/-- The spec settles an entry on its base layer, for its account, for one that it names, or for
the bridge of its currency. -/
structure SettlesEntry (t : Transaction) (layers : BaseLayers) (e : Entry) (x : EntrySpec) :
    Prop where
  account : x.account = e.account ∨
    (∃ code, e.Names code ∧ findAccount? t code = some x.account) ∨
    findLiabilityBridge? t e.account.currency = some x.account
  layer : baseLayerOf e layers = .ok x.layer

theorem SettlesEntry.pair {t : Transaction} {layers : BaseLayers} {e : Entry} {x y : EntrySpec}
    (hx : SettlesEntry t layers e x) (hy : SettlesEntry t layers e y) :
    ∀ z ∈ [x, y], SettlesEntry t layers e z := by
  simp [hx, hy]

section Settlement

variable {t : Transaction} {layers : BaseLayers} {e : Entry} {a : Account} {layer : Layer}
  {legs : List EntrySpec}

theorem exists_of_findAccount? {code : String} (h : findAccount? t code = some a) :
    ∃ e ∈ t.entries, e.account = a := by
  obtain ⟨e, he, rfl⟩ := Option.map_eq_some_iff.1 h
  exact ⟨e, List.mem_of_find?_eq_some he, rfl⟩

theorem recipient_eq_ok {code : String} (h : recipient t code = .ok a) :
    findAccount? t code = some a := by
  unfold recipient at h
  split at h
  · rename_i b hb
    rw [hb, Except.ok.inj h]
  · cases h

theorem settlingBridge_eq_ok {currency : CurrencyCode} (h : settlingBridge t currency = .ok a) :
    findLiabilityBridge? t currency = some a := by
  unfold settlingBridge at h
  split at h
  · rename_i b hb
    rw [hb, Except.ok.inj h]
  · cases h

theorem baseLayerOf_eq_ok (h : baseLayerOf e layers = .ok layer) :
    ∃ c ∈ layers, c.1 = e.account.currency ∧ c.2 = layer := by
  unfold baseLayerOf BaseLayers.get? at h
  split at h
  · rename_i l hl
    obtain rfl := Except.ok.inj h
    obtain ⟨c, hc, rfl⟩ := Option.map_eq_some_iff.1 hl
    exact ⟨c, List.mem_of_find?_eq_some hc, by simpa using List.find?_some hc, rfl⟩
  · cases h

theorem SettlesEntry.exists_account (he : e ∈ t.entries) {x : EntrySpec}
    (h : SettlesEntry t layers e x) : ∃ e' ∈ t.entries, e'.account = x.account := by
  rcases h.account with haccount | ⟨code, -, haccount⟩ | haccount
  · exact ⟨e, he, haccount.symm⟩
  · exact exists_of_findAccount? haccount
  · obtain ⟨e', he', haccount⟩ := Option.map_eq_some_iff.1 haccount
    exact ⟨e', List.mem_of_find?_eq_some he', haccount⟩

/-- What settles an entry is on the base layer of its currency. -/
theorem SettlesEntry.exists_base {x : EntrySpec} (h : SettlesEntry t t.readLayers e x) :
    ∃ e' ∈ t.entries, e'.account.currency = e.account.currency ∧
      x.layer = .of .base e'.account.currencyId := by
  obtain ⟨b, hb, hcurrency, hlayer⟩ := baseLayerOf_eq_ok h.layer
  obtain ⟨e', he', rfl⟩ := List.mem_map.1 hb
  exact ⟨e', he', hcurrency, hlayer.symm⟩

theorem payOut_settles (h : payOut t layers e = .ok legs) :
    ∀ x ∈ legs, SettlesEntry t layers e x := by
  unfold payOut at h
  split at h
  · obtain rfl := Except.ok.inj h
    simp
  · rename_i code hcode
    obtain ⟨a, ha, h⟩ := bind_eq_ok.1 h
    obtain ⟨layer, hlayer, h⟩ := bind_eq_ok.1 h
    obtain rfl := Except.ok.inj h
    exact SettlesEntry.pair ⟨.inr (.inl ⟨code, .inl hcode, recipient_eq_ok ha⟩), hlayer⟩
      ⟨.inl rfl, hlayer⟩

theorem collect_settles (h : collect t layers e = .ok legs) :
    ∀ x ∈ legs, SettlesEntry t layers e x := by
  unfold collect at h
  split at h
  · obtain rfl := Except.ok.inj h
    simp
  · rename_i code hcode
    obtain ⟨a, ha, h⟩ := bind_eq_ok.1 h
    obtain ⟨bridge, hbridge, h⟩ := bind_eq_ok.1 h
    obtain ⟨layer, hlayer, h⟩ := bind_eq_ok.1 h
    obtain rfl := Except.ok.inj h
    exact SettlesEntry.pair ⟨.inr (.inl ⟨code, .inr hcode, recipient_eq_ok ha⟩), hlayer⟩
      ⟨.inr (.inr (settlingBridge_eq_ok hbridge)), hlayer⟩

theorem billMovement_settles {code : String} (hcode : e.Names code)
    (ha : findAccount? t code = some a) (hlayer : baseLayerOf e layers = .ok layer)
    (kind : EntryKind) : ∀ x ∈ billMovement e kind a layer, SettlesEntry t layers e x := by
  have hnamed : ∀ x : EntrySpec, x.account = a → x.layer = layer → SettlesEntry t layers e x :=
    fun x hx hl => ⟨.inr (.inl ⟨code, hcode, hx ▸ ha⟩), hl ▸ hlayer⟩
  have hown : ∀ x : EntrySpec, x.account = e.account → x.layer = layer →
      SettlesEntry t layers e x := fun x hx hl => ⟨.inl hx, hl ▸ hlayer⟩
  cases kind with
  | amount => exact SettlesEntry.pair (hown _ rfl rfl) (hnamed _ rfl rfl)
  | rebate | commission => exact SettlesEntry.pair (hnamed _ rfl rfl) (hown _ rfl rfl)
  | fee | other name => simp [billMovement]

theorem settleLeg_settles (h : settleLeg t layers e = .ok legs) :
    ∀ x ∈ legs, SettlesEntry t layers e x := by
  unfold settleLeg at h
  split at h
  · obtain rfl := Except.ok.inj h
    simp
  rename_i code hcode
  split at h
  · cases h
  split at h
  · obtain rfl := Except.ok.inj h
    simp
  · rename_i a ha
    obtain ⟨layer, hlayer, h⟩ := bind_eq_ok.1 h
    obtain rfl := Except.ok.inj h
    have hnames : e.Names code := by
      rw [Option.orElse_eq_orElse, Option.orElse_eq_or, Option.or_eq_some_iff] at hcode
      exact hcode.imp id And.right
    exact billMovement_settles hnames ha hlayer _

theorem settles_flatten {f : Entry → Except LedgerError (List EntrySpec)}
    {lists : List (List EntrySpec)} (h : t.entries.mapM f = .ok lists)
    (hf : ∀ e legs, f e = .ok legs → ∀ x ∈ legs, SettlesEntry t layers e x) :
    ∀ x ∈ lists.flatten, ∃ e ∈ t.entries, SettlesEntry t layers e x := by
  intro x hx
  obtain ⟨legs, hlegs, hx⟩ := List.mem_flatten.1 hx
  obtain ⟨e, he, hfe⟩ := exists_of_mem_mapM h hlegs
  exact ⟨e, he, hf e legs hfe x hx⟩

theorem inboundSettlement_settles (h : inboundSettlement t layers = .ok legs) :
    ∀ x ∈ legs, ∃ e ∈ t.entries, SettlesEntry t layers e x := by
  obtain ⟨paid, hpaid, h⟩ := bind_eq_ok.1 h
  obtain ⟨collected, hcollected, h⟩ := bind_eq_ok.1 h
  obtain rfl := Except.ok.inj h
  intro x hx
  rw [List.flatten_append] at hx
  rcases List.mem_append.1 hx with hx | hx
  · exact settles_flatten hpaid (fun _ _ => payOut_settles) x hx
  · exact settles_flatten hcollected (fun _ _ => collect_settles) x hx

theorem billSettlement_settles (h : billSettlement t layers = .ok legs) :
    ∀ x ∈ legs, ∃ e ∈ t.entries, SettlesEntry t layers e x := by
  obtain ⟨settled, hsettled, h⟩ := bind_eq_ok.1 h
  obtain rfl := Except.ok.inj h
  exact settles_flatten hsettled fun _ _ => settleLeg_settles

/-- A settlement is the way back on all other layers, followed by movements on base layers. -/
theorem Strategy.settlement_eq_ok {strategy : Strategy}
    (h : strategy.settlement t layers = .ok legs) : ∃ settled,
      legs = unwindSpecs t layers ++ settled ∧
        ∀ x ∈ settled, ∃ e ∈ t.entries, SettlesEntry t layers e x := by
  cases strategy with
  | direct => cases h
  | pendingInbound =>
    obtain ⟨settled, hsettled, h⟩ := bind_eq_ok.1 h
    exact ⟨settled, (Except.ok.inj h).symm, inboundSettlement_settles hsettled⟩
  | pendingBillPayment =>
    obtain ⟨settled, hsettled, h⟩ := bind_eq_ok.1 h
    exact ⟨settled, (Except.ok.inj h).symm, billSettlement_settles hsettled⟩

theorem mem_unwindSpecs {x : EntrySpec} (h : x ∈ unwindSpecs t layers) :
    ∃ e ∈ t.entries, e.account = x.account ∧ e.layer = x.layer := by
  obtain ⟨e, he, rfl⟩ := List.mem_map.1 h
  exact ⟨e, (List.mem_filter.1 he).1, rfl, rfl⟩

end Settlement

namespace LedgerService

variable {s : LedgerService} {t c : Transaction} {reference : String}

/-- The base layers of the currencies are those of the entries. -/
theorem baseLayersOf_eq_ok {layers : BaseLayers} (h : s.baseLayersOf t = .ok layers) :
    layers = t.readLayers := by
  have hall := mapM_eq_ok_iff.1 h
  rw [← List.forall₂_eq_eq_eq, Transaction.readLayers, List.forall₂_map_right_iff]
  refine (hall.imp fun e c hc => ?_).flip
  obtain ⟨id, hid, rfl⟩ := map_eq_ok.1 hc
  rw [(registeredId_eq_ok.1 hid).2]
  rfl

/-- **A completion** takes back what its transaction posted outside of base layers, and then
posts settling movements. -/
theorem buildCompletion_eq_ok (h : s.buildCompletion t reference = .ok c) :
    ∃ layers settled, s.baseLayersOf t = .ok layers ∧ c.journal = t.journal ∧
      c.postings = (unwindSpecs t layers ++ settled).map EntrySpec.posting ∧
      ∀ x ∈ settled, ∃ e ∈ t.entries, SettlesEntry t layers e x := by
  obtain ⟨layers, hlayers, h⟩ := bind_eq_ok.1 h
  obtain ⟨shape, -, h⟩ := bind_eq_ok.1 h
  obtain ⟨strategy, -, h⟩ := bind_eq_ok.1 h
  obtain ⟨legs, hlegs, h⟩ := bind_eq_ok.1 h
  obtain ⟨settled, rfl, hsettled⟩ := Strategy.settlement_eq_ok hlegs
  obtain ⟨-, rfl⟩ := Transaction.post_eq_ok.1 h
  exact ⟨layers, settled, hlayers, rfl, Transaction.postings_entryOf _ _, hsettled⟩

theorem tags_of_buildCompletion (h : s.buildCompletion t reference = .ok c) :
    c.tags = t.tags.add ("completes:" ++ t.detail) := by
  obtain ⟨layers, -, h⟩ := bind_eq_ok.1 h
  obtain ⟨shape, -, h⟩ := bind_eq_ok.1 h
  obtain ⟨strategy, -, h⟩ := bind_eq_ok.1 h
  obtain ⟨legs, -, h⟩ := bind_eq_ok.1 h
  obtain ⟨-, rfl⟩ := Transaction.post_eq_ok.1 h
  simp only [Transaction.tags_start]

variable {known : Set Account}

theorem buildCompletion_within (ht : t.Within known)
    (h : s.buildCompletion t reference = .ok c) : c.Within known := by
  obtain ⟨layers, settled, -, -, hpostings, hsettled⟩ := buildCompletion_eq_ok h
  intro e he
  have hmem : e.posting ∈ c.postings := List.mem_map_of_mem he
  rw [hpostings] at hmem
  obtain ⟨x, hx, hposting⟩ := List.mem_map.1 hmem
  have haccount : ∃ e' ∈ t.entries, e'.account = x.account := by
    rcases List.mem_append.1 hx with hx | hx
    · obtain ⟨e', he', hx, -⟩ := mem_unwindSpecs hx
      exact ⟨e', he', hx⟩
    · obtain ⟨e', he', hx⟩ := hsettled x hx
      exact hx.exists_account he'
  obtain ⟨e', he', hx⟩ := haccount
  have hsame : x.account = e.account := congrArg Posting.account hposting
  rw [← hsame, ← hx]
  exact ht e' he'

end LedgerService

/-! ## Reversals and resets -/

theorem Transaction.Within.reversal {t : Transaction} {known : Set Account} (ht : t.Within known)
    (reference : String) : (t.reversal reference).Within known := by
  intro e he
  obtain ⟨e', he', rfl⟩ := List.mem_map.1 he
  exact ht e' he'

namespace LedgerService

variable {s : LedgerService} {chart : Chart} {journal : JournalId} {lookup : BalanceLookup}
  {reference : String} {known : Set Account}

/-- A reset posts for an account, and for the asset bridge of its currency. -/
theorem of_mem_usageReset {a : Account} {layer : Layer} {usage : Decimal} {legs : List EntrySpec}
    (h : usageReset chart a layer usage = .ok legs) {x : EntrySpec} (hx : x ∈ legs) :
    x.layer = layer ∧ (x.account = a ∨ chart.bridge? a.currency .asset = some x.account) := by
  unfold usageReset at h
  split at h
  · obtain rfl := Except.ok.inj h
    simp at hx
  split at h
  · cases h
  · rename_i bridge hbridge
    obtain rfl := Except.ok.inj h
    simp only [List.mem_cons, List.not_mem_nil, or_false] at hx
    rcases hx with rfl | rfl
    · exact ⟨rfl, .inl rfl⟩
    · exact ⟨rfl, .inr hbridge⟩

theorem exists_usageReset {a : Account} {legs : List EntrySpec}
    (h : s.resetSpecs journal chart lookup a = .ok legs) : s.Registers a ∧
      ∃ usage, usageReset chart a (.of .dailyLimit a.currencyId) usage = .ok legs := by
  obtain ⟨id, hid, h⟩ := bind_eq_ok.1 h
  obtain ⟨hregisters, rfl⟩ := registeredId_eq_ok.1 (orError_eq_ok.1 hid)
  obtain ⟨answer, -, h⟩ := bind_eq_ok.1 h
  cases answer with
  | error e => cases h
  | ok usage => exact ⟨hregisters, usage, orError_eq_ok.1 h⟩

/-- Every entry of a reset is for an account that can have usage, or for its asset bridge. -/
theorem exists_of_dailyReset {t : Transaction}
    (h : s.dailyReset journal chart reference lookup = .ok (some t)) {e : Entry}
    (he : e ∈ t.entries) : ∃ a ∈ usageAccounts chart, s.Registers a ∧
      e.layer = .of .dailyLimit a.currencyId ∧
      (e.account = a ∨ chart.bridge? a.currency .asset = some e.account) := by
  obtain ⟨specs, hspecs, hpost, -⟩ := dailyReset_eq_some h
  obtain ⟨-, rfl⟩ := Transaction.post_eq_ok.1 hpost
  obtain ⟨x, hx, rfl⟩ := List.mem_map.1 he
  obtain ⟨legs, hlegs, hx⟩ := List.mem_flatten.1 hx
  obtain ⟨a, ha, hreset⟩ := exists_of_mem_mapM hspecs hlegs
  obtain ⟨hregisters, usage, husage⟩ := exists_usageReset hreset
  exact ⟨a, ha, hregisters, of_mem_usageReset husage hx⟩

theorem dailyReset_within (hchart : chart.Within known) {t : Transaction}
    (h : s.dailyReset journal chart reference lookup = .ok (some t)) :
    t.journal = journal ∧ t.Within known := by
  constructor
  · obtain ⟨specs, -, hpost, -⟩ := dailyReset_eq_some h
    obtain ⟨-, rfl⟩ := Transaction.post_eq_ok.1 hpost
    rfl
  · intro e he
    obtain ⟨a, ha, -, -, haccount | hbridge⟩ := exists_of_dailyReset h he
    · rw [haccount]
      exact hchart.account a (List.mem_filter.1 ha).1
    · exact hchart.bridge? hbridge

end LedgerService

end LayeredLedger
