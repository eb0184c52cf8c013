import LayeredLedger.Proofs.InRange
import LayeredLedger.Proofs.Marking
import LayeredLedger.Proofs.Usage

/-!
# When every operation answers

What an operation adds up is bounded by what it is given. A created transaction has an amount at
most once on each side of a layer, twice on pending layers. A completion takes back what is there
and moves every entry at most twice; a reversal has the amounts of its transaction, and a reset
those of the usages. As long as these bounds are in range every operation comes to a result or an
error, and a request out of range does not.

* `loadOn_pair`, `loadOn_flatten_le`: loads of movements and of lists of them;
* `Strategy.loadOn_legs_le`, `IsDraft.fits`: created transactions;
* `LedgerService.fits_of_buildCompletion`: completions;
* `Transaction.Fits.reversal`: reversals;
* `usageLoad`, `answered_dailyReset`: resets;
* `answered_create`, `answered_complete`, `answered_reverse`, `answered_reverseGroup`,
  `LedgerService.create_eq_overflow`: operations one by one;
* **`answered_of_fits`**: every operation answers for what is in range;
* `payments_overflow`: two payments that are not answered.
-/

namespace LayeredLedger

/-! ## Loads of movements -/

section Movements

variable (side : Side) (layer : Layer)

/-- An amount that moves from one account to another on a layer. -/
theorem loadOn_pair (first : Side) (a b : Account) (amount : Decimal) (l : Layer) :
    loadOn side layer [⟨a, first, amount, l⟩, ⟨b, first.opposite, amount, l⟩] =
      if l = layer then amount.roundedUp else 0 := by
  by_cases h : l = layer <;> cases first <;> cases side <;> simp [loadOn_cons, Side.opposite, h]

theorem loadOn_pair_le (first : Side) (a b : Account) (amount : Decimal) (l : Layer) :
    loadOn side layer [⟨a, first, amount, l⟩, ⟨b, first.opposite, amount, l⟩] ≤
      amount.roundedUp := by
  rw [loadOn_pair]
  split
  · exact le_rfl
  · exact Nat.zero_le _

theorem loadOn_flatMap {α : Type} (l : List α) (f : α → List Posting) :
    loadOn side layer (l.flatMap f) = (l.map fun a => loadOn side layer (f a)).sum := by
  induction l with
  | nil => rfl
  | cons a l ih => rw [List.flatMap_cons, loadOn_append, ih, List.map_cons, List.sum_cons]

/-- Lists of specs, each of which is bounded by what it is made from. -/
theorem loadOn_flatten_le {ε α : Type} {f : α → Except ε (List EntrySpec)} {w : α → Nat}
    {l : List α} {lists : List (List EntrySpec)} (h : l.mapM f = .ok lists)
    (hf : ∀ a legs, f a = .ok legs → loadOn side layer (legs.map EntrySpec.posting) ≤ w a) :
    loadOn side layer (lists.flatten.map EntrySpec.posting) ≤ (l.map w).sum := by
  have hall := mapM_eq_ok_iff.1 h
  clear h
  induction hall with
  | nil => exact le_rfl
  | @cons a legs l lists hlegs _ ih =>
    rw [List.flatten_cons, List.map_append, loadOn_append, List.map_cons, List.sum_cons]
    exact Nat.add_le_add (hf a legs hlegs) ih

end Movements

/-! ## Created transactions -/

/-- What the amounts of a request come to at most, in whole numbers. -/
def TransactionRequest.load (request : TransactionRequest) : Nat :=
  (request.entries.map fun r => r.amount.amount.roundedUp).sum

/-- The amount of a plan, if a band is the one of a layer. -/
def EntryPlan.share (p : EntryPlan) (band : Band) (layer : Layer) : Nat :=
  if p.layer band = layer then p.amount.roundedUp else 0

section Legs

variable (side : Side) (layer : Layer) {p : EntryPlan}

/-- A layer is that of one band at most. -/
theorem EntryPlan.sum_share_le {bands : List Band} (h : bands.Nodup) :
    (bands.map fun band => p.share band layer).sum ≤ p.amount.roundedUp := by
  induction bands with
  | nil => exact Nat.zero_le _
  | cons band bands ih =>
    obtain ⟨hnew, hnodup⟩ := List.nodup_cons.1 h
    rw [List.map_cons, List.sum_cons]
    by_cases hlayer : p.layer band = layer
    · have hrest : (bands.map fun band => p.share band layer).sum = 0 := by
        refine List.sum_eq_zero fun n hn => ?_
        obtain ⟨other, hother, rfl⟩ := List.mem_map.1 hn
        have hne : p.layer other ≠ layer := fun e => by
          obtain rfl := (Layer.of_injective (e.trans hlayer.symm)).1
          exact hnew hother
        exact if_neg hne
      rw [hrest, EntryPlan.share, if_pos hlayer, Nat.add_zero]
    · rw [EntryPlan.share, if_neg hlayer, Nat.zero_add]
      exact ih hnodup

theorem loadOn_transferLegs (band : Band) :
    loadOn side layer ((transferLegs p (p.layer band)).map EntrySpec.posting) =
      p.share band layer :=
  loadOn_pair side layer .debit p.debit p.credit p.amount (p.layer band)

theorem loadOn_feeLegs_le :
    loadOn side layer ((feeLegs p).map EntrySpec.posting) ≤ p.share .fee layer := by
  unfold feeLegs
  split
  · exact (loadOn_pair side layer .debit p.debit p.credit p.amount (p.layer .fee)).le
  · exact Nat.zero_le _

theorem loadOn_usageLegs_le : loadOn side layer ((usageLegs p).map EntrySpec.posting) ≤
    p.share .dailyLimit layer + p.share .cumulativeLimit layer := by
  unfold usageLegs
  split
  · cases p.assetBridge? with
    | none => exact Nat.zero_le _
    | some bridge =>
      have hon (band : Band) :
          loadOn side layer ((usageOn p bridge (p.layer band)).map EntrySpec.posting) =
            p.share band layer :=
        loadOn_pair side layer .debit bridge p.debit p.amount (p.layer band)
      rw [List.map_append, loadOn_append, hon, hon]
  · exact Nat.zero_le _

theorem loadOn_intoBridge (liability : Account) (tags : Tags) :
    loadOn side layer ((intoBridge p liability tags).map EntrySpec.posting) =
      p.share .base layer :=
  loadOn_pair side layer .debit p.debit liability p.amount (p.layer .base)

theorem loadOn_pendingLegs_le (asset liability : Account) (tags? : Option Tags) :
    loadOn side layer ((pendingLegs p asset liability tags?).map EntrySpec.posting) ≤
      2 * p.share .pending layer := by
  unfold pendingLegs
  cases p.credit.side with
  | credit =>
    have hfirst := loadOn_pair side layer .debit asset liability p.amount (p.layer .pending)
    have hsecond := loadOn_pair side layer .debit liability p.credit p.amount (p.layer .pending)
    have hboth := loadOn_append side layer
      [⟨asset, .debit, p.amount, p.layer .pending⟩, ⟨liability, .credit, p.amount, p.layer .pending⟩]
      [⟨liability, .debit, p.amount, p.layer .pending⟩,
        ⟨p.credit, .credit, p.amount, p.layer .pending⟩]
    rw [Side.opposite] at hfirst hsecond
    rw [hfirst, hsecond] at hboth
    exact le_trans hboth.le (two_mul (p.share .pending layer)).ge
  | debit =>
    have hpair := loadOn_pair side layer .debit p.credit liability p.amount (p.layer .pending)
    exact le_trans hpair.le (Nat.le_mul_of_pos_left _ (by decide))

/-- An amount is at most once on each side of a layer, and twice on pending layers. -/
theorem Strategy.loadOn_legs_le {strategy : Strategy} {legs : List EntrySpec}
    (h : strategy.legs p = .ok legs) : loadOn side layer (legs.map EntrySpec.posting) ≤
      p.amount.roundedUp + p.share .pending layer := by
  have hbase := p.sum_share_le layer (by decide : [Band.base, .pending].Nodup)
  simp only [List.map_cons, List.map_nil, List.sum_cons, List.sum_nil] at hbase
  cases strategy with
  | direct =>
    obtain rfl := Except.ok.inj h
    have hsum := p.sum_share_le layer
      (by decide : [Band.base, .fee, .dailyLimit, .cumulativeLimit].Nodup)
    have hfee := loadOn_feeLegs_le side layer (p := p)
    have husage := loadOn_usageLegs_le side layer (p := p)
    simp only [List.map_cons, List.map_nil, List.sum_cons, List.sum_nil] at hsum
    simp only [directLegs, List.map_append, loadOn_append, loadOn_transferLegs]
    omega
  | pendingInbound =>
    obtain ⟨asset, liability, -, -, rfl⟩ := inboundLegs_eq_ok h
    have hpending := loadOn_pendingLegs_le side layer (p := p) asset liability none
    simp only [List.map_append, loadOn_append, loadOn_intoBridge]
    omega
  | pendingBillPayment =>
    obtain ⟨asset, liability, -, -, hbill⟩ := billPaymentLegs_eq_ok h
    have hpending (a b : Account) (tags? : Option Tags) :=
      loadOn_pendingLegs_le side layer (p := p) a b tags?
    cases hbill with
    | amount =>
      have := hpending asset liability none
      simp only [List.map_append, loadOn_append, loadOn_intoBridge]
      omega
    | rebate => exact le_trans (hpending _ _ _) (by omega)
    | commission => exact le_trans (hpending _ _ _) (by omega)
    | plainCommission => exact le_trans (hpending _ _ _) (by omega)
    | none => exact Nat.zero_le _

end Legs

theorem Tags.AskForLimit.of_add {s : Tags} {text key value : String}
    (h : (s.add text).AskForLimit) (hp : pair? text = some (key, value))
    (hne : ∀ kind : LimitKind, key ≠ kind.tagKey.name) : s.AskForLimit := by
  obtain ⟨kind, hkind⟩ := h
  rw [get?_limit_add hp (hne kind)] at hkind
  exact ⟨kind, hkind⟩

section Draft

variable {s : LedgerService} {request : TransactionRequest} {chart : Chart} {t : Transaction}
  {strategy : Strategy} {plans : List EntryPlan} (hd : IsDraft s request chart t strategy plans)

include hd

theorem IsDraft.loadOn_le (side : Side) (layer : Layer) {factor : Nat}
    (hfactor : ∀ p ∈ plans,
      p.amount.roundedUp + p.share .pending layer ≤ factor * p.amount.roundedUp) :
    loadOn side layer t.postings ≤ factor * request.load := by
  have hload : request.load = (plans.map fun p => p.amount.roundedUp).sum := by
    rw [TransactionRequest.load, ← hd.requests, List.map_map]
    rfl
  rw [hd.postings, loadOn_flatMap, hload, ← List.sum_map_mul_left]
  refine List.sum_le_sum fun p hp => ?_
  exact le_trans (Strategy.loadOn_legs_le side layer (hd.legs p hp)) (hfactor p hp)

theorem IsDraft.askForLimit (h : t.tags.AskForLimit) :
    (metadataTags request.metadata).AskForLimit := by
  rw [hd.tags] at h
  exact (h.of_add (pair?_typeTag _) fun kind => by cases kind <;> decide).of_add
    (pair?_groupTag _) fun kind => by cases kind <;> decide

/-- A created transaction fits if twice the amounts of its request do. -/
theorem IsDraft.fits {usage : Nat} (h : 2 * request.load < mantissaBound)
    (hlimit : (metadataTags request.metadata).AskForLimit →
      2 * request.load + usage < mantissaBound) : t.Fits usage where
  sides side layer := by
    have hle : loadOn side layer t.postings ≤ 2 * request.load :=
      hd.loadOn_le side layer fun p _ => by
        have := p.sum_share_le layer (by decide : [Band.pending].Nodup)
        simp only [List.map_cons, List.map_nil, List.sum_cons, List.sum_nil] at this
        omega
    omega
  limits ht kind id := by
    have husage := hlimit (hd.askForLimit ht)
    have hle (side : Side) : loadOn side (.of kind.band id) t.postings ≤ 1 * request.load :=
      hd.loadOn_le side _ fun p _ => by
        have hne : p.layer .pending ≠ .of kind.band id := fun e => by
          have hband := (Layer.of_injective e).1
          cases kind <;> cases hband
        rw [EntryPlan.share, if_neg hne]
        omega
    have hdebit := hle .debit
    have hcredit := hle .credit
    omega

end Draft

/-! ## Completions -/

section Settlement

variable {t : Transaction} {layers : BaseLayers} {e : Entry} {legs : List EntrySpec}
  (side : Side) (layer : Layer)

theorem loadOn_unwindSpecs_le (t : Transaction) (layers : BaseLayers) :
    loadOn side layer ((unwindSpecs t layers).map EntrySpec.posting) ≤
      loadOn side.opposite layer t.postings := by
  have hpostings : (unwindSpecs t layers).map EntrySpec.posting =
      ((t.entries.filter fun e => e.layer ∈ unwoundLayers layers).map Entry.posting).map
        Posting.opposite := by
    rw [unwindSpecs, Transaction.reversalSpecs, List.map_map, List.map_map]
    rfl
  rw [hpostings, loadOn_opposite]
  exact loadOn_le_of_sublist _ _ (List.filter_sublist.map _)

theorem loadOn_payOut_le (h : payOut t layers e = .ok legs) :
    loadOn side layer (legs.map EntrySpec.posting) ≤ e.amount.roundedUp := by
  unfold payOut at h
  split at h
  · obtain rfl := Except.ok.inj h
    exact Nat.zero_le _
  · obtain ⟨a, -, h⟩ := bind_eq_ok.1 h
    obtain ⟨l, -, h⟩ := bind_eq_ok.1 h
    obtain rfl := Except.ok.inj h
    exact loadOn_pair_le side layer .credit a e.account e.amount l

theorem loadOn_collect_le (h : collect t layers e = .ok legs) :
    loadOn side layer (legs.map EntrySpec.posting) ≤ e.amount.roundedUp := by
  unfold collect at h
  split at h
  · obtain rfl := Except.ok.inj h
    exact Nat.zero_le _
  · obtain ⟨a, -, h⟩ := bind_eq_ok.1 h
    obtain ⟨bridge, -, h⟩ := bind_eq_ok.1 h
    obtain ⟨l, -, h⟩ := bind_eq_ok.1 h
    obtain rfl := Except.ok.inj h
    exact loadOn_pair_le side layer .debit a bridge e.amount l

theorem loadOn_settleLeg_le (h : settleLeg t layers e = .ok legs) :
    loadOn side layer (legs.map EntrySpec.posting) ≤ e.amount.roundedUp := by
  unfold settleLeg at h
  split at h
  · obtain rfl := Except.ok.inj h
    exact Nat.zero_le _
  split at h
  · cases h
  rename_i kind _
  split at h
  · obtain rfl := Except.ok.inj h
    exact Nat.zero_le _
  · rename_i a _
    obtain ⟨l, -, h⟩ := bind_eq_ok.1 h
    obtain rfl := Except.ok.inj h
    cases EntryKind.ofName kind with
    | amount => exact loadOn_pair_le side layer .debit e.account a e.amount l
    | rebate | commission => exact loadOn_pair_le side layer .debit a e.account e.amount l
    | fee | other name => exact Nat.zero_le _

theorem loadOf_postings : loadOf t.postings = (t.entries.map fun e => e.amount.roundedUp).sum := by
  simp only [loadOf, Decimal.load, Transaction.postings, List.map_map, Function.comp_def,
    Entry.posting]

/-- What settles a transaction moves every entry at most twice. -/
theorem Strategy.exists_settled {strategy : Strategy}
    (h : strategy.settlement t layers = .ok legs) : ∃ settled,
      legs = unwindSpecs t layers ++ settled ∧
        (∀ x ∈ settled, ∃ e ∈ t.entries, SettlesEntry t layers e x) ∧
        ∀ side layer, loadOn side layer (settled.map EntrySpec.posting) ≤
          2 * loadOf t.postings := by
  obtain ⟨settled, rfl, hsettled⟩ := Strategy.settlement_eq_ok h
  refine ⟨settled, rfl, hsettled, fun side layer => ?_⟩
  rw [loadOf_postings]
  cases strategy with
  | direct => cases h
  | pendingInbound =>
    obtain ⟨movements, hmovements, h⟩ := bind_eq_ok.1 h
    obtain rfl : movements = settled := List.append_cancel_left (Except.ok.inj h)
    obtain ⟨paid, hpaid, hmovements⟩ := bind_eq_ok.1 hmovements
    obtain ⟨collected, hcollected, hmovements⟩ := bind_eq_ok.1 hmovements
    obtain rfl := Except.ok.inj hmovements
    have h1 := loadOn_flatten_le side layer hpaid fun _ _ => loadOn_payOut_le side layer
    have h2 := loadOn_flatten_le side layer hcollected fun _ _ => loadOn_collect_le side layer
    rw [List.flatten_append, List.map_append, loadOn_append]
    omega
  | pendingBillPayment =>
    obtain ⟨movements, hmovements, h⟩ := bind_eq_ok.1 h
    obtain rfl : movements = settled := List.append_cancel_left (Except.ok.inj h)
    obtain ⟨lists, hlists, hmovements⟩ := bind_eq_ok.1 hmovements
    obtain rfl := Except.ok.inj hmovements
    have h1 := loadOn_flatten_le side layer hlists fun _ _ => loadOn_settleLeg_le side layer
    omega

/-- What is taken back is not on base layers. -/
theorem loadOn_unwindSpecs_base (t : Transaction) (id : CurrencyId) :
    loadOn side (.of .base id) ((unwindSpecs t t.readLayers).map EntrySpec.posting) = 0 := by
  refine loadOn_eq_zero side _ fun p hp hlayer => ?_
  obtain ⟨x, hx, rfl⟩ := List.mem_map.1 hp
  obtain ⟨e, he, rfl⟩ := List.mem_map.1 hx
  obtain ⟨e', -, band, hband, hunwound⟩ :=
    mem_unwoundLayers.1 (of_decide_eq_true (List.mem_filter.1 he).2)
  obtain rfl := (Layer.of_injective (hunwound.symm.trans hlayer)).1
  exact absurd hband (by decide)

/-- What settles entries is on base layers. -/
theorem loadOn_settled_eq_zero {settled : List EntrySpec}
    (hsettled : ∀ x ∈ settled, ∃ e ∈ t.entries, SettlesEntry t t.readLayers e x)
    (hlayer : ∀ id, layer ≠ .of .base id) :
    loadOn side layer (settled.map EntrySpec.posting) = 0 := by
  refine loadOn_eq_zero side layer fun p hp e => ?_
  obtain ⟨x, hx, rfl⟩ := List.mem_map.1 hp
  obtain ⟨_, _, hsettles⟩ := hsettled x hx
  obtain ⟨_, -, -, hxlayer⟩ := hsettles.exists_base
  exact hlayer _ (e.symm.trans hxlayer)

end Settlement

/-- On base layers a completion has nothing but what settles, and on the others nothing but what
is taken back. -/
theorem LedgerService.loadOn_buildCompletion_le {s : LedgerService} {t c : Transaction}
    {reference : String} (h : s.buildCompletion t reference = .ok c) (side : Side)
    (layer : Layer) :
    ((∃ id, layer = .of .base id) ∧ loadOn side layer c.postings ≤ 2 * loadOf t.postings) ∨
    ((∀ id, layer ≠ .of .base id) ∧
      loadOn side layer c.postings ≤ loadOn side.opposite layer t.postings) := by
  obtain ⟨layers, hlayers, h⟩ := bind_eq_ok.1 h
  obtain ⟨shape, -, h⟩ := bind_eq_ok.1 h
  obtain ⟨strategy, -, h⟩ := bind_eq_ok.1 h
  obtain ⟨legs, hlegs, h⟩ := bind_eq_ok.1 h
  obtain rfl := baseLayersOf_eq_ok hlayers
  obtain ⟨settled, rfl, hsettled, hmoved⟩ := Strategy.exists_settled hlegs
  have hpostings : c.postings = (unwindSpecs t t.readLayers).map EntrySpec.posting ++
      settled.map EntrySpec.posting := by
    obtain ⟨-, rfl⟩ := Transaction.post_eq_ok.1 h
    rw [← List.map_append]
    exact Transaction.postings_entryOf _ _
  rw [hpostings, loadOn_append]
  by_cases hlayer : ∃ id, layer = .of .base id
  · refine .inl ⟨hlayer, ?_⟩
    obtain ⟨id, rfl⟩ := hlayer
    rw [loadOn_unwindSpecs_base, Nat.zero_add]
    exact hmoved side _
  · have hlayer : ∀ id, layer ≠ .of .base id := fun id e => hlayer ⟨id, e⟩
    refine .inr ⟨hlayer, ?_⟩
    rw [loadOn_settled_eq_zero side layer hsettled hlayer, Nat.add_zero]
    exact loadOn_unwindSpecs_le side layer t t.readLayers

/-- A completion fits if twice its transaction does. -/
theorem LedgerService.fits_of_buildCompletion {s : LedgerService} {t c : Transaction}
    {reference : String} {usage : Nat} (h : s.buildCompletion t reference = .ok c)
    (hload : 2 * loadOf t.postings < mantissaBound)
    (hlimit : t.tags.AskForLimit → 2 * loadOf t.postings + usage < mantissaBound) :
    c.Fits usage where
  sides side layer := by
    rcases loadOn_buildCompletion_le h side layer with ⟨-, hle⟩ | ⟨-, hle⟩
    · omega
    · have := loadOn_le_loadOf side.opposite layer t.postings
      omega
  limits hc kind id := by
    have hpair : pair? ("completes:" ++ t.detail) = some ("completes", Text.trim t.detail) :=
      pair?_append t.detail (by decide) (by decide) (by decide)
    rw [tags_of_buildCompletion h] at hc
    have husage := hlimit (hc.of_add hpair fun kind => by cases kind <;> decide)
    -- a limit layer is no base layer, so its sides are those of the transaction, the other way
    have hback (side : Side) : loadOn side (.of kind.band id) c.postings ≤
        loadOn side.opposite (.of kind.band id) t.postings := by
      rcases loadOn_buildCompletion_le h side (.of kind.band id) with ⟨⟨id', e⟩, -⟩ | ⟨-, hle⟩
      · have hband := (Layer.of_injective e).1
        cases kind <;> cases hband
      · exact hle
    have hdebits : _ ≤ loadOn .credit _ t.postings := hback .debit
    have hcredits : _ ≤ loadOn .debit _ t.postings := hback .credit
    have hboth := loadOn_add_loadOn_le (.of kind.band id) t.postings
    omega

/-! ## Reversals -/

theorem Transaction.Fits.reversal {t : Transaction} {usage : Nat} (h : t.Fits usage)
    (reference : String) : (t.reversal reference).Fits usage where
  sides side layer := by
    rw [postings_reversal, loadOn_opposite]
    exact h.sides side.opposite layer
  limits ht kind id := by
    have hboth : loadOn .debit (.of kind.band id) (t.postings.map Posting.opposite) =
          loadOn .credit (.of kind.band id) t.postings ∧
        loadOn .credit (.of kind.band id) (t.postings.map Posting.opposite) =
          loadOn .debit (.of kind.band id) t.postings :=
      ⟨loadOn_opposite _ _ _, loadOn_opposite _ _ _⟩
    have ht : t.tags.AskForLimit := by
      obtain ⟨kind, hkind⟩ := ht
      rw [t.get?_limit_reversal] at hkind
      exact ⟨kind, hkind⟩
    have hlimits := h.limits ht kind id
    rw [postings_reversal, hboth.1, hboth.2]
    omega

/-! ## Resets -/

/-- What the known usages of the accounts that can have some come to at most, in whole numbers. -/
def usageLoad (chart : Chart) (journal : JournalId) (answers : Answers) : Nat :=
  ((usageAccounts chart).map fun a =>
    match answers ⟨journal, a, [LimitKind.daily.usageLayer a]⟩ with
    | .ok usage => usage.roundedUp
    | .error _ => 0).sum

section Resets

variable {s : LedgerService} {journal : JournalId} {chart : Chart} {answers : Answers}

theorem loadOn_usageReset_le {a : Account} {l : Layer} {usage : Decimal} {legs : List EntrySpec}
    (h : LedgerService.usageReset chart a l usage = .ok legs) (side : Side) (layer : Layer) :
    loadOn side layer (legs.map EntrySpec.posting) ≤ usage.roundedUp := by
  unfold LedgerService.usageReset at h
  split at h
  · obtain rfl := Except.ok.inj h
    exact Nat.zero_le _
  split at h
  · cases h
  · rename_i bridge _
    obtain rfl := Except.ok.inj h
    rw [← usage.roundedUp_abs]
    exact loadOn_pair_le side layer (resetSide a.side usage) a bridge usage.abs l

/-- An account adds its usage to a reset. -/
theorem loadOn_resetSpecs_le {a : Account} {legs : List EntrySpec}
    (h : s.resetSpecs journal chart (fun q => .ok (answers q)) a = .ok legs) (side : Side)
    (layer : Layer) : loadOn side layer (legs.map EntrySpec.posting) ≤
      match answers ⟨journal, a, [LimitKind.daily.usageLayer a]⟩ with
      | .ok usage => usage.roundedUp
      | .error _ => 0 := by
  obtain ⟨id, hid, h⟩ := bind_eq_ok.1 h
  obtain ⟨-, rfl⟩ := LedgerService.registeredId_eq_ok.1 (orError_eq_ok.1 hid)
  obtain ⟨answer, hanswer, h⟩ := bind_eq_ok.1 h
  have hanswer : answers ⟨journal, a, [LimitKind.daily.usageLayer a]⟩ = answer :=
    Except.ok.inj (orOverflow_eq_ok.1 hanswer)
  rw [hanswer]
  cases answer with
  | error e => cases h
  | ok usage => exact loadOn_usageReset_le (orError_eq_ok.1 h) side layer

theorem answered_resetSpecs (a : Account) :
    Answered (s.resetSpecs journal chart (fun q => .ok (answers q)) a) := by
  refine (Answered.of_orError _).bind fun id _ => ?_
  refine (Answered.of_orOverflow ⟨_, rfl⟩).bind fun answer _ => ?_
  cases answer with
  | error e => exact .error _
  | ok usage => exact .of_orError _

theorem answered_dailyReset (h : usageLoad chart journal answers < mantissaBound)
    (reference : String) :
    Answered (s.dailyReset journal chart reference fun q => .ok (answers q)) := by
  refine (Answered.mapM fun a _ => answered_resetSpecs a).bind fun specs hspecs => ?_
  split
  · exact .ok none
  refine (Answered.of_orError _).bind fun t ht => ?_
  refine Answered.bind (answered_validate fun side layer => ?_) fun _ _ => .ok (some t)
  have hload := loadOn_flatten_le side layer hspecs fun a legs hlegs =>
    loadOn_resetSpecs_le hlegs side layer
  have hpostings : t.entries.map Entry.posting = specs.flatten.map EntrySpec.posting := by
    obtain ⟨-, rfl⟩ := Transaction.post_eq_ok.1 (orError_eq_ok.1 ht)
    exact Transaction.postings_entryOf _ _
  rw [hpostings]
  exact lt_of_le_of_lt hload h

end Resets

/-! ## Operations -/

section Operations

variable {s : LedgerService} (hrules : ∀ r ∈ s.rules, r.rule.IsSafe) {answers : Answers}
  {usage : Nat} (husage : ∀ q current, answers q = .ok current → current.roundedUp ≤ usage)

include hrules husage

/-- Whatever is built and fits is answered, when it is validated and shown to the rules. -/
theorem answered_approve (built : Except LedgerError Transaction)
    (hfits : ∀ t, built = .ok t → t.Fits usage) :
    Answered (s.approve (fun q => .ok (answers q))
      (do let t ← orError built; validate t.entries; return t)) := by
  refine Answered.bind ?_ fun t ht => ?_
  · refine (Answered.of_orError built).bind fun t ht => ?_
    have hsides := (hfits t (orError_eq_ok.1 ht)).sides
    exact (answered_validate hsides).bind fun _ _ => .ok t
  · have hbuilt := hfits t (validated_eq_ok.1 ht).1
    exact (answered_evaluate hrules husage hbuilt).bind fun _ _ => .ok t

theorem answered_approve_reversal {t : Transaction} (hfits : t.Fits usage) (reference : String) :
    Answered (s.approve (fun q => .ok (answers q)) (reversalDraft t reference)) :=
  answered_approve hrules husage (.ok (t.reversal reference)) fun _ h =>
    Except.ok.inj h ▸ hfits.reversal reference

theorem answered_create {request : TransactionRequest} {chart : Chart}
    (h : 2 * request.load < mantissaBound) (hlimit : (metadataTags request.metadata).AskForLimit →
      2 * request.load + usage < mantissaBound) :
    Answered (s.create request chart fun q => .ok (answers q)) :=
  answered_approve hrules husage (s.build request chart) fun t ht => by
    obtain ⟨_, _, hd⟩ := exists_isDraft ht
    exact hd.fits h hlimit

theorem answered_complete {t : Transaction} (h : 2 * loadOf t.postings < mantissaBound)
    (hlimit : t.tags.AskForLimit → 2 * loadOf t.postings + usage < mantissaBound)
    (reference : String) : Answered (s.complete t reference fun q => .ok (answers q)).1 := by
  unfold LedgerService.complete
  split
  · exact .ok _
  · have happrove := answered_approve hrules husage (s.buildCompletion t reference) fun c hc =>
      LedgerService.fits_of_buildCompletion hc h hlimit
    change Answered (s.approve _ (s.completionDraft t reference)) at happrove
    generalize s.approve _ (s.completionDraft t reference) = outcome at happrove
    cases happrove with
    | ok c => exact .ok _
    | error e => exact .error e

theorem answered_reverse {t : Transaction} (hfits : t.Fits usage) (reference : String) :
    Answered (s.reverse t reference fun q => .ok (answers q)).1 := by
  unfold LedgerService.reverse
  split
  · exact .ok _
  · have happrove := answered_approve_reversal hrules husage hfits reference
    generalize s.approve _ (reversalDraft t reference) = outcome at happrove
    cases happrove with
    | ok r => exact .ok _
    | error e => exact .error e

theorem answered_reverseGroup {group : List Transaction} (hfits : ∀ t ∈ group, t.Fits usage)
    (reference : String) (references : Nat → String) :
    Answered (s.reverseGroup reference group references fun q => .ok (answers q)).1 := by
  rcases LedgerService.group_cases group with rfl | ⟨hne, hall⟩ | hpartly | ⟨hne, hopen⟩
  · exact .error _
  · rw [LedgerService.reverseGroup_of_reversed hne hall]
    exact .ok _
  · rw [LedgerService.reverseGroup_of_partiallyReversed hpartly]
    exact .error _
  · rw [LedgerService.reverseGroup_of_open hne hopen]
    have hperm := (isNewestFirst_newestFirst Transaction.postDate group).perm
    generalize newestFirst Transaction.postDate group = sorted at hperm
    have happrove : Answered ((groupDrafts sorted references).mapM
        (s.approve fun q => .ok (answers q))) := by
      refine .mapM fun draft hdraft => ?_
      obtain ⟨⟨t, i⟩, hti, rfl⟩ := List.mem_map.1 hdraft
      have ht := hperm.mem_iff.1 (List.fst_mem_of_mem_zipIdx hti)
      exact answered_approve_reversal hrules husage (hfits t ht) (references i)
    generalize (groupDrafts sorted references).mapM (s.approve fun q => .ok (answers q)) =
      outcome at happrove
    cases happrove with
    | ok rs => exact .ok _
    | error e => exact .error e

end Operations

/-- A request is not answered if the whole parts on a side of a layer are out of range. -/
theorem LedgerService.create_eq_overflow {s : LedgerService} {request : TransactionRequest}
    {chart : Chart} {t : Transaction} (hbuilt : s.build request chart = .ok t) {side : Side}
    {layer : Layer} (h : mantissaBound ≤ Decimal.wholeLoad (amountsOn side layer t.postings))
    (lookup : BalanceLookup) :
    s.create request chart lookup = .error (.overflow .addition) := by
  obtain ⟨strategy, plans, hd⟩ := exists_isDraft hbuilt
  have hpos : ∀ e ∈ t.entries, 0 < e.amount := fun e he => by
    obtain ⟨p, hp, x, hx, rfl⟩ := hd.exists_leg he
    change 0 < x.amount
    rw [(hd.isLegOf hp hx).amount]
    exact (hd.plan p hp).amount_pos
  have hinvalid := validate_eq_overflow hpos h
  refine bind_eq_error.2 (.inl (bind_eq_error.2 (.inr ⟨t, orError_eq_ok.2 hbuilt, ?_⟩)))
  exact bind_eq_error.2 (.inl hinvalid)

/-! ## The main result -/

/-- **Every operation answers for what is in range.** Let the rules of a service be those of the
ledger, or others that do not leave the range by themselves, and let no usage that is looked up be
above a whole number. Then each operation comes to a result or to an error of the ledger: a
creation and a completion if twice the amounts that they are given, rounded up, are in range, with
that number if there is a limit; a reversal, also of a group, if the sides of the layers of its
transactions are; and a reset if the usages are. But a request whose transaction has whole parts
out of range on a side of a layer is not answered. -/
theorem answered_of_fits {s : LedgerService} (hrules : ∀ r ∈ s.rules, r.rule.IsSafe)
    {answers : Answers} {usage : Nat}
    (husage : ∀ q current, answers q = .ok current → current.roundedUp ≤ usage) :
    (∀ request chart, 2 * request.load < mantissaBound →
      ((metadataTags request.metadata).AskForLimit → 2 * request.load + usage < mantissaBound) →
      Answered (s.create request chart fun q => .ok (answers q))) ∧
    (∀ t reference, 2 * loadOf t.postings < mantissaBound →
      (t.tags.AskForLimit → 2 * loadOf t.postings + usage < mantissaBound) →
      Answered (s.complete t reference fun q => .ok (answers q)).1) ∧
    (∀ t reference, t.Fits usage →
      Answered (s.reverse t reference fun q => .ok (answers q)).1) ∧
    (∀ reference group references, (∀ t ∈ group, t.Fits usage) →
      Answered (s.reverseGroup reference group references fun q => .ok (answers q)).1) ∧
    (∀ journal chart reference, usageLoad chart journal answers < mantissaBound →
      Answered (s.dailyReset journal chart reference fun q => .ok (answers q))) ∧
    ∀ request chart t, s.build request chart = .ok t →
      (∃ side layer, mantissaBound ≤ Decimal.wholeLoad (amountsOn side layer t.postings)) →
        s.create request chart (fun q => .ok (answers q)) = .error (.overflow .addition) :=
  ⟨fun _ _ h hlimit => answered_create hrules husage h hlimit,
    fun _ reference h hlimit => answered_complete hrules husage h hlimit reference,
    fun _ reference h => answered_reverse hrules husage h reference,
    fun reference _ references h => answered_reverseGroup hrules husage h reference references,
    fun _ _ reference h => answered_dailyReset h reference,
    fun _ _ _ hbuilt ⟨_, _, h⟩ => LedgerService.create_eq_overflow hbuilt h _⟩

namespace SmallLedger

/-- The payer hands the largest amount over to the wallet. -/
def largeEntry : EntryRequest where
  debit := payer.code
  credit := wallet.code
  amount := ⟨largest, usd⟩
  detail := EntryKind.amount.name
  metadata := .ofList [("type", EntryKind.amount.name)]

/-- Two payments of the largest amount, without a limit. -/
def largePayments : TransactionRequest :=
  { request false .p2p [largeEntry, largeEntry] with metadata := ∅ }

end SmallLedger

open SmallLedger in
/-- A deposit is created, completed and reversed, alone and as a group, and usage is reset, where
everybody has used ten dollars; two payments of the largest amount are not answered. -/
theorem answered_of_fits_smallLedger : ∃ t,
    service.create (deposit 40) chart spent = .ok t ∧
    Answered (service.create (deposit 40) chart spent) ∧
    Answered (service.complete t "T2" spent).1 ∧
    Answered (service.reverse t "T3" spent).1 ∧
    Answered (service.reverseGroup "G1" [t] (fun _ => "T4") spent).1 ∧
    Answered (service.dailyReset journal chart "T5" spent) ∧
    service.create largePayments chart spent = .error (.overflow .addition) := by
  obtain ⟨t, ht, h⟩ := bind_eq_ok.1 (by decide +kernel : (do
    let t ← service.create (deposit 40) chart spent
    return decide (2 * loadOf t.postings + 10 < mantissaBound)) =
      (.ok true : Except Failure Bool))
  have hload : 2 * loadOf t.postings + 10 < mantissaBound := of_decide_eq_true (Except.ok.inj h)
  have hfits : t.Fits 10 := Transaction.fits_of_loadOf (by omega)
  obtain ⟨u, hu, h⟩ := bind_eq_ok.1 (by decide +kernel : (do
    let u ← service.build largePayments chart
    return decide (mantissaBound ≤
      Decimal.wholeLoad (amountsOn .debit (.of .base usdId) u.postings))) =
        (.ok true : Except LedgerError Bool))
  have hrules : ∀ r ∈ service.rules, r.rule.IsSafe := fun _ => Rule.isSafe_of_standard
  have husage : ∀ (q : BalanceQuery) (current : Decimal),
      (.ok (dollars 10) : Except LookupError Decimal) = .ok current → current.roundedUp ≤ 10 := by
    rintro _ _ ⟨⟩
    decide +kernel
  obtain ⟨hcreate, hcomplete, hreverse, hgroup, hreset, hoverflow⟩ :=
    answered_of_fits (s := service) hrules husage
  exact ⟨t, ht, hcreate (deposit 40) chart (by decide +kernel) fun _ => by decide +kernel,
    hcomplete t "T2" (by omega) fun _ => hload, hreverse t "T3" hfits,
    hgroup "G1" [t] _ (by simpa using hfits), hreset journal chart "T5" (by decide +kernel),
    hoverflow largePayments chart u hu ⟨.debit, _, of_decide_eq_true (Except.ok.inj h)⟩⟩

open SmallLedger in
/-- Two payments of the largest amount can be asked for, but their sum is out of range, so
creating the transaction comes neither to a result nor to an error. -/
theorem payments_overflow :
    ¬∀ (s : LedgerService) (request : TransactionRequest) (chart : Chart) (answers : Answers),
      s.rules = .standard s.currencies →
        Answered (s.create request chart fun q => .ok (answers q)) := by
  intro hall
  have hanswered := hall service largePayments chart (fun _ => .ok 0) rfl
  have hoverflow : (service.create largePayments chart fun _ => .ok (.ok 0)).map (fun _ => ()) =
      .error (.overflow .addition) := by decide +kernel
  generalize service.create largePayments chart (fun _ => .ok (.ok 0)) = outcome at *
  cases hanswered with
  | ok t => cases hoverflow
  | error e => cases hoverflow

end LayeredLedger
