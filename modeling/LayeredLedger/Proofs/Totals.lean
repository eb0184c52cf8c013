import LayeredLedger.Posting.Totals
import LayeredLedger.Proofs.Outcome
import LayeredLedger.Proofs.Postings
import LayeredLedger.Rule.DoubleEntry

/-!
# What the totals are

The totals of a layer are the amounts on its two sides, added up from zero and from the left. The
validation and the rule of double entry add up the same amounts in the same order.

* `LayerTotals.on`: the total on a side; `Totals.at_insert`, `Totals.at_of_mem`: totals by layer;
* `foldlM_addEntry`, `exists_foldlM_addEntry`: totals after some entries;
* `Totals.of_unbalanced?_eq_some`: the layer that is reported is the lowest one;
* `validate_of_totals`, `of_validate_eq_unbalanced`: what validation says of totals;
* `validate_of_sidesMatch`: on matching sides only a sum out of range is left to go wrong;
* `BalancesOn`, `validate_eq_ok_iff`: validation says of every layer that its sides have one sum;
* **`validate_ne_unbalanced`**, `SidesMatch.balancesOn`: matching sides balance.
-/

namespace LayeredLedger

/-! ## One layer -/

namespace LayerTotals

/-- The total on a side. -/
def on (t : LayerTotals) : Side → Decimal
  | .debit => t.debits
  | .credit => t.credits

theorem on_add {t t' : LayerTotals} {side : Side} {amount : Decimal}
    (h : t.add side amount = .ok t') :
    t'.layer = t.layer ∧ (t.on side).add amount = .ok (t'.on side) ∧
      ∀ other, other ≠ side → t'.on other = t.on other := by
  cases side <;>
  · obtain ⟨sum, hsum, rfl⟩ := map_eq_ok.1 h
    refine ⟨rfl, hsum, fun other ho => ?_⟩
    cases other
    all_goals first | rfl | exact absurd rfl ho

theorem exists_add {t : LayerTotals} {side : Side} {amount sum : Decimal}
    (h : (t.on side).add amount = .ok sum) : ∃ t', t.add side amount = .ok t' := by
  cases side <;> exact ⟨_, map_eq_ok.2 ⟨sum, h, rfl⟩⟩

end LayerTotals

/-! ## All layers -/

namespace Totals

theorem layer_at (totals : Totals) (layer : Layer) : (totals.at layer).layer = layer := by
  unfold Totals.at
  cases h : totals.get? layer.value with
  | none => rfl
  | some t =>
    exact Layer.ext_value (Keyed.get?_eq_some_iff.1 h).2

@[simp] theorem at_empty (layer : Layer) : Totals.at ∅ layer = ⟨layer, 0, 0⟩ := rfl

@[simp] theorem on_at_empty (layer : Layer) (side : Side) : (Totals.at ∅ layer).on side = 0 := by
  cases side <;> rfl

theorem at_insert (totals : Totals) (t : LayerTotals) (layer : Layer) :
    Totals.at (totals.insert t) layer = if t.layer = layer then t else totals.at layer := by
  unfold Totals.at
  rw [Keyed.get?_insert]
  by_cases h : t.layer = layer
  · subst h
    simp [LayerTotals.place]
  · have h' : ¬t.layer.value = layer.value := fun e => h (Layer.ext_value e)
    simp [LayerTotals.place, h, h']

theorem at_of_mem {totals : Totals} {t : LayerTotals} (h : t ∈ totals.toList) :
    totals.at t.layer = t := by
  have : totals.get? t.layer.value = some t := Keyed.get?_eq_some_iff.2 ⟨h, rfl⟩
  simp [Totals.at, this]

end Totals

theorem addEntry_at {totals totals' : Totals} {e : Entry} (h : addEntry totals e = .ok totals')
    (side : Side) (layer : Layer) :
    (amountsOn side layer [e.posting]).foldlM Decimal.add ((totals.at layer).on side) =
      .ok ((totals'.at layer).on side) := by
  obtain ⟨t, ht, rfl⟩ := map_eq_ok.1 h
  obtain ⟨hl, hs, ho⟩ := LayerTotals.on_add ht
  rw [Totals.layer_at] at hl
  rw [Totals.at_insert, hl, amountsOn_cons, amountsOn_nil]
  by_cases he : e.layer = layer
  · subst he
    by_cases hside : e.side = side
    · subst hside
      simpa [Entry.posting, List.foldlM] using hs
    · have := ho side (Ne.symm hside)
      simp [Entry.posting, hside, this, pure, Except.pure]
  · simp [Entry.posting, he, pure, Except.pure]

/-- The totals after some entries: the amounts on each side, added up in posting order. -/
theorem foldlM_addEntry {entries : List Entry} {totals totals' : Totals}
    (h : entries.foldlM addEntry totals = .ok totals') (side : Side) (layer : Layer) :
    (amountsOn side layer (entries.map Entry.posting)).foldlM Decimal.add
      ((totals.at layer).on side) = .ok ((totals'.at layer).on side) := by
  induction entries generalizing totals with
  | nil =>
    obtain rfl : totals = totals' := by simpa [pure, Except.pure] using h
    rfl
  | cons e entries ih =>
    rw [List.foldlM_cons] at h
    obtain ⟨next, hnext, h⟩ := bind_eq_ok.1 h
    have := amountsOn_append side layer [e.posting] (entries.map Entry.posting)
    rw [List.map_cons, ← List.singleton_append, this, List.foldlM_append]
    exact bind_eq_ok.2 ⟨_, addEntry_at hnext side layer, ih h⟩

/-- There are totals if the amounts on each side of each layer add up. -/
theorem exists_foldlM_addEntry {entries : List Entry} {totals : Totals}
    (h : ∀ side layer, ∃ sum, (amountsOn side layer (entries.map Entry.posting)).foldlM Decimal.add
      ((totals.at layer).on side) = .ok sum) :
    ∃ totals', entries.foldlM addEntry totals = .ok totals' := by
  induction entries generalizing totals with
  | nil => exact ⟨totals, rfl⟩
  | cons e entries ih =>
    -- the amounts of the first entry add up, and then those of the rest
    have hsplit : ∀ side layer, ∃ mid sum,
        (amountsOn side layer [e.posting]).foldlM Decimal.add ((totals.at layer).on side) =
          .ok mid ∧
        (amountsOn side layer (entries.map Entry.posting)).foldlM Decimal.add mid = .ok sum := by
      intro side layer
      obtain ⟨sum, hsum⟩ := h side layer
      rw [List.map_cons, ← List.singleton_append, amountsOn_append, List.foldlM_append] at hsum
      obtain ⟨mid, hmid, hsum⟩ := bind_eq_ok.1 hsum
      exact ⟨mid, sum, hmid, hsum⟩
    obtain ⟨next, hnext⟩ : ∃ next, addEntry totals e = .ok next := by
      obtain ⟨mid, -, hmid, -⟩ := hsplit e.side e.layer
      have hfirst : ((totals.at e.layer).on e.side).add e.amount = .ok mid := by
        simpa [amountsOn_cons, Entry.posting, List.foldlM] using hmid
      obtain ⟨t, ht⟩ := LayerTotals.exists_add hfirst
      exact ⟨_, map_eq_ok.2 ⟨t, ht, rfl⟩⟩
    have hrest : ∀ side layer, ∃ sum, (amountsOn side layer (entries.map Entry.posting)).foldlM
        Decimal.add ((next.at layer).on side) = .ok sum := by
      intro side layer
      obtain ⟨mid, sum, hmid, hsum⟩ := hsplit side layer
      obtain rfl := Except.ok.inj (hmid.symm.trans (addEntry_at hnext side layer))
      exact ⟨sum, hsum⟩
    obtain ⟨totals', hrest⟩ := ih hrest
    rw [List.foldlM_cons]
    exact ⟨totals', bind_eq_ok.2 ⟨next, hnext, hrest⟩⟩

/-- On matching sides the two totals of a layer are the same decimal. -/
theorem totals_eq_of_sidesMatch {entries : List Entry} {totals : Totals}
    (hm : SidesMatch (entries.map Entry.posting)) (h : entries.foldlM addEntry ∅ = .ok totals)
    (layer : Layer) : (totals.at layer).debits = (totals.at layer).credits := by
  have hd := foldlM_addEntry h .debit layer
  have hc := foldlM_addEntry h .credit layer
  rw [hm layer] at hd
  exact Except.ok.inj (hd.symm.trans hc)

/-! ## Validation -/

theorem foldlM_addValidEntry {entries : List Entry} (h : ∀ e ∈ entries, 0 < e.amount)
    (totals : Totals) :
    entries.foldlM addValidEntry totals = orOverflow (entries.foldlM addEntry totals) := by
  induction entries generalizing totals with
  | nil => rfl
  | cons e entries ih =>
    have he : addValidEntry totals e = orOverflow (addEntry totals e) :=
      if_neg (Int.not_le.2 (h e (by simp)))
    rw [List.foldlM_cons, List.foldlM_cons, he]
    cases addEntry totals e with
    | error o => rfl
    | ok next => exact ih (fun e he => h e (by simp [he])) next

/-- Totals that pass the test of amounts are totals. -/
theorem foldlM_addEntry_of_valid {entries : List Entry} {totals totals' : Totals}
    (h : entries.foldlM addValidEntry totals = .ok totals') :
    entries.foldlM addEntry totals = .ok totals' ∧ ∀ e ∈ entries, 0 < e.amount := by
  induction entries generalizing totals with
  | nil => exact ⟨by simpa [pure, Except.pure] using h, by simp⟩
  | cons e entries ih =>
    rw [List.foldlM_cons] at h
    obtain ⟨next, hnext, h⟩ := bind_eq_ok.1 h
    by_cases he : e.amount ≤ 0
    · simp [addValidEntry, he] at hnext
    · rw [addValidEntry, if_neg he, orOverflow_eq_ok] at hnext
      obtain ⟨hrest, hpos⟩ := ih h
      refine ⟨by rw [List.foldlM_cons]; exact bind_eq_ok.2 ⟨next, hnext, hrest⟩, ?_⟩
      intro x hx
      rcases List.mem_cons.1 hx with rfl | hx
      · exact Int.not_le.1 he
      · exact hpos x hx

/-- The test of amounts finds fault with an amount, unless a sum is out of range. -/
theorem error_of_foldlM_addValidEntry {entries : List Entry} {totals : Totals} {e : LedgerError}
    (h : entries.foldlM addValidEntry totals = .error (.error e)) :
    ∃ code amount, e = .invalidAmount code amount := by
  obtain ⟨totals, x, -, h⟩ := exists_of_foldlM_eq_error h
  unfold addValidEntry at h
  split at h
  · exact ⟨_, _, (Failure.error.inj (Except.error.inj h)).symm⟩
  · obtain ⟨o, -, heq⟩ := orOverflow_eq_error.1 h
    cases heq

/-- Validation finds fault with the number of entries, an amount or a layer. -/
theorem error_of_validate {entries : List Entry} {e : LedgerError}
    (h : validate entries = .error (.error e)) :
    e = .noEntries ∨ (∃ code amount, e = .invalidAmount code amount) ∨
      ∃ layer debits credits, e = .unbalanced layer debits credits := by
  unfold validate at h
  split at h
  · exact .inl (Failure.error.inj (Except.error.inj h)).symm
  rcases bind_eq_error.1 h with h | ⟨totals, -, h⟩
  · exact .inr (.inl (error_of_foldlM_addValidEntry h))
  · split at h
    · rename_i e' hunbalanced
      obtain rfl := Failure.error.inj (Except.error.inj h)
      obtain ⟨t, -, rfl⟩ := Option.map_eq_some_iff.1 hunbalanced
      exact .inr (.inr ⟨_, _, _, rfl⟩)
    · cases h

/-- What a list that passes validation is like. -/
theorem of_validate {entries : List Entry} (h : validate entries = .ok ()) :
    entries ≠ [] ∧ (∀ e ∈ entries, 0 < e.amount) ∧
      ∃ totals, entries.foldlM addEntry ∅ = .ok totals := by
  unfold validate at h
  split at h
  · cases h
  · rename_i hne
    obtain ⟨totals, ht, -⟩ := bind_eq_ok.1 h
    obtain ⟨ht, hpos⟩ := foldlM_addEntry_of_valid ht
    exact ⟨by simpa using hne, hpos, totals, ht⟩

namespace Totals

variable {totals : Totals}

theorem unbalanced?_eq_none_iff_toList :
    totals.unbalanced? = none ↔ ∀ l ∈ totals.toList, l.isBalanced = true := by
  rw [unbalanced?, Option.map_eq_none_iff, List.find?_eq_none]
  simp

/-- No layer is reported if the two totals of every layer are the same number. -/
theorem unbalanced?_eq_none_iff : totals.unbalanced? = none ↔
    ∀ layer, (totals.at layer).debits.SameValue (totals.at layer).credits := by
  rw [unbalanced?_eq_none_iff_toList]
  constructor
  · intro h layer
    cases hget : totals.get? layer.value with
    | none => simp [Totals.at, hget, Decimal.SameValue]
    | some l =>
      rw [Totals.at, hget]
      exact of_decide_eq_true (h l (Keyed.get?_eq_some_iff.1 hget).1)
  · intro h l hl
    have hlayer := h l.layer
    rw [at_of_mem hl] at hlayer
    exact decide_eq_true hlayer

/-- The layer that is reported does not balance, and all lower ones do. -/
theorem of_unbalanced?_eq_some {e : LedgerError} (h : totals.unbalanced? = some e) :
    ∃ l ∈ totals.toList, e = .unbalanced l.layer l.debits l.credits ∧ l.isBalanced = false ∧
      ∀ l' ∈ totals.toList, l'.layer.value < l.layer.value → l'.isBalanced = true := by
  obtain ⟨l, hfind, rfl⟩ := Option.map_eq_some_iff.1 h
  obtain ⟨hl, before, after, hsplit, hbefore⟩ := List.find?_eq_some_iff_append.1 hfind
  refine ⟨l, List.mem_of_find?_eq_some hfind, rfl, by simpa using hl, fun l' hl' hlt => ?_⟩
  have hascending := totals.ascending
  rw [hsplit] at hl' hascending
  simpa using hbefore l' (mem_before_of_key_lt hascending hl' hlt)

end Totals

/-- If the totals are in range, only a layer can be wrong. -/
theorem validate_of_totals {entries : List Entry} {totals : Totals} (hne : entries ≠ [])
    (hpos : ∀ e ∈ entries, 0 < e.amount) (h : entries.foldlM addEntry ∅ = .ok totals) :
    validate entries = match totals.unbalanced? with
      | some e => .error (.error e)
      | none => .ok () := by
  rw [validate, if_neg (by simpa using hne), foldlM_addValidEntry hpos, h]
  rfl

/-- What is known of a list with a layer that is reported: its amounts are above zero, and the two
sums of the layer are not the same number. -/
theorem of_validate_eq_unbalanced {entries : List Entry} {layer : Layer} {debits credits : Decimal}
    (h : validate entries = .error (.error (.unbalanced layer debits credits))) :
    (∀ e ∈ entries, 0 < e.amount) ∧
      Decimal.sum (amountsOn .debit layer (entries.map Entry.posting)) = .ok debits ∧
      Decimal.sum (amountsOn .credit layer (entries.map Entry.posting)) = .ok credits ∧
      ¬debits.SameValue credits := by
  unfold validate at h
  split at h
  · cases h
  rcases bind_eq_error.1 h with h | ⟨totals, htotals, h⟩
  · obtain ⟨code, amount, heq⟩ := error_of_foldlM_addValidEntry h
    cases heq
  obtain ⟨htotals, hpos⟩ := foldlM_addEntry_of_valid htotals
  split at h
  · rename_i e hreported
    obtain rfl := Failure.error.inj (Except.error.inj h)
    obtain ⟨l, hl, heq, hunbalanced, -⟩ := Totals.of_unbalanced?_eq_some hreported
    obtain ⟨rfl, rfl, rfl⟩ := LedgerError.unbalanced.inj heq
    have hsum (side : Side) := foldlM_addEntry htotals side l.layer
    simp only [Totals.on_at_empty, Totals.at_of_mem hl] at hsum
    exact ⟨hpos, hsum .debit, hsum .credit, of_decide_eq_false hunbalanced⟩
  · cases h

theorem unbalanced?_of_sidesMatch {entries : List Entry} {totals : Totals}
    (hm : SidesMatch (entries.map Entry.posting)) (h : entries.foldlM addEntry ∅ = .ok totals) :
    totals.unbalanced? = none :=
  Totals.unbalanced?_eq_none_iff.2 fun layer => by
    rw [totals_eq_of_sidesMatch hm h layer]
    exact rfl

/-- **Matching sides never fail validation as unbalanced**, however sums are rounded. -/
theorem validate_ne_unbalanced {entries : List Entry}
    (hm : SidesMatch (entries.map Entry.posting)) (layer : Layer) (debits credits : Decimal) :
    validate entries ≠ .error (.error (.unbalanced layer debits credits)) := by
  unfold validate
  split
  · simp
  · cases h : entries.foldlM addValidEntry ∅ with
    | error f =>
      intro hf
      obtain rfl : f = .error (.unbalanced layer debits credits) := by
        simpa [bind, Except.bind] using hf
      obtain ⟨code, amount, hamount⟩ := error_of_foldlM_addValidEntry h
      cases hamount
    | ok totals =>
      have := unbalanced?_of_sidesMatch hm (foldlM_addEntry_of_valid h).1
      simp [bind, Except.bind, this]

/-- On matching sides only a sum out of range is left to go wrong. -/
theorem validate_of_sidesMatch {entries : List Entry} (hne : entries ≠ [])
    (hpos : ∀ e ∈ entries, 0 < e.amount) (hm : SidesMatch (entries.map Entry.posting)) :
    validate entries = orOverflow ((entries.foldlM addEntry ∅).map fun _ => ()) := by
  cases h : entries.foldlM addEntry ∅ with
  | error o =>
    rw [validate, if_neg (by simpa using hne), foldlM_addValidEntry hpos, h]
    rfl
  | ok totals =>
    rw [validate_of_totals hne hpos h, unbalanced?_of_sidesMatch hm h]
    rfl

/-! ## Layers that balance -/

/-- The amounts on the two sides of a layer add up to the same number. -/
def BalancesOn (ps : List Posting) (layer : Layer) : Prop :=
  ∃ debits credits, Decimal.sum (amountsOn .debit layer ps) = .ok debits ∧
    Decimal.sum (amountsOn .credit layer ps) = .ok credits ∧ debits.SameValue credits

/-- A list of entries is valid if there are some, their amounts are above zero, and every layer
balances. -/
theorem validate_eq_ok_iff {entries : List Entry} : validate entries = .ok () ↔
    entries ≠ [] ∧ (∀ e ∈ entries, 0 < e.amount) ∧
      ∀ layer, BalancesOn (entries.map Entry.posting) layer := by
  constructor
  · intro h
    obtain ⟨hne, hpos, totals, ht⟩ := of_validate h
    refine ⟨hne, hpos, fun layer => ?_⟩
    have hnone : totals.unbalanced? = none := by
      rw [validate_of_totals hne hpos ht] at h
      cases hu : totals.unbalanced? with
      | none => rfl
      | some e => simp [hu] at h
    exact ⟨_, _, foldlM_addEntry ht .debit layer, foldlM_addEntry ht .credit layer,
      Totals.unbalanced?_eq_none_iff.1 hnone layer⟩
  · rintro ⟨hne, hpos, hbal⟩
    obtain ⟨totals, ht⟩ : ∃ totals, entries.foldlM addEntry ∅ = .ok totals := by
      refine exists_foldlM_addEntry fun side layer => ?_
      obtain ⟨debits, credits, hd, hc, -⟩ := hbal layer
      rw [Totals.on_at_empty]
      cases side with
      | debit => exact ⟨debits, hd⟩
      | credit => exact ⟨credits, hc⟩
    have hnone : totals.unbalanced? = none := Totals.unbalanced?_eq_none_iff.2 fun layer => by
      obtain ⟨debits, credits, hd, hc, heq⟩ := hbal layer
      have hd' := Except.ok.inj ((foldlM_addEntry ht .debit layer).symm.trans hd)
      have hc' := Except.ok.inj ((foldlM_addEntry ht .credit layer).symm.trans hc)
      rwa [← hd', ← hc'] at heq
    rw [validate_of_totals hne hpos ht, hnone]

/-- Matching sides balance on every layer, if the totals are in range. -/
theorem SidesMatch.balancesOn {entries : List Entry} {totals : Totals}
    (hm : SidesMatch (entries.map Entry.posting)) (h : entries.foldlM addEntry ∅ = .ok totals)
    (layer : Layer) : BalancesOn (entries.map Entry.posting) layer := by
  refine ⟨_, _, foldlM_addEntry h .debit layer, foldlM_addEntry h .credit layer, ?_⟩
  change (totals.at layer).debits.SameValue (totals.at layer).credits
  rw [totals_eq_of_sidesMatch hm h layer]
  exact rfl

theorem BalancesOn.opposite {ps : List Posting} {layer : Layer} (h : BalancesOn ps layer) :
    BalancesOn (ps.map Posting.opposite) layer := by
  obtain ⟨debits, credits, hd, hc, heq⟩ := h
  refine ⟨credits, debits, ?_, ?_, heq.symm⟩
  · rwa [amountsOn_opposite]
  · rwa [amountsOn_opposite]

/-! ## Double entry -/

/-- Adds an entry to the sums of debits and credits. -/
def addToSide (sums : Decimal × Decimal) (e : Entry) : Except Overflow (Decimal × Decimal) :=
  match e.side with
  | .debit => (sums.1.add e.amount).map (·, sums.2)
  | .credit => (sums.2.add e.amount).map (sums.1, ·)

theorem sideTotals_eq (entries : List Entry) :
    sideTotals entries = entries.foldlM addToSide (0, 0) := rfl

theorem addToSide_eq_ok {sums next : Decimal × Decimal} {e : Entry} :
    addToSide sums e = .ok next ↔
      (amountsOn .debit e.layer [e.posting]).foldlM Decimal.add sums.1 = .ok next.1 ∧
      (amountsOn .credit e.layer [e.posting]).foldlM Decimal.add sums.2 = .ok next.2 := by
  obtain ⟨d, c⟩ := next
  have hone (x y : Decimal) : [x].foldlM Decimal.add y = y.add x := bind_pure _
  unfold addToSide
  cases hs : e.side <;>
    simp [-List.foldlM_cons, amountsOn_cons, Entry.posting, hs, map_eq_ok, hone, pure,
      Except.pure, and_comm]

/-- The sums on a layer are those of its two sides. -/
theorem foldlM_addToSide_eq_ok {entries : List Entry} {layer : Layer} {a b d c : Decimal} :
    (entries.filter (·.layer = layer)).foldlM addToSide (a, b) = .ok (d, c) ↔
      (amountsOn .debit layer (entries.map Entry.posting)).foldlM Decimal.add a = .ok d ∧
      (amountsOn .credit layer (entries.map Entry.posting)).foldlM Decimal.add b = .ok c := by
  induction entries generalizing a b with
  | nil => simp [pure, Except.pure]
  | cons e entries ih =>
    by_cases he : e.layer = layer
    · subst he
      have hsplit (side : Side) : amountsOn side e.layer ((e :: entries).map Entry.posting) =
          amountsOn side e.layer [e.posting] ++
            amountsOn side e.layer (entries.map Entry.posting) :=
        amountsOn_append side e.layer [e.posting] (entries.map Entry.posting)
      rw [List.filter_cons_of_pos (by simp), hsplit, hsplit]
      simp only [List.foldlM_cons, List.foldlM_append, bind_eq_ok, addToSide_eq_ok]
      constructor
      · rintro ⟨⟨x, y⟩, ⟨hx, hy⟩, h⟩
        obtain ⟨hd, hc⟩ := ih.1 h
        exact ⟨⟨x, hx, hd⟩, y, hy, hc⟩
      · rintro ⟨⟨x, hx, hd⟩, y, hy, hc⟩
        exact ⟨⟨x, y⟩, ⟨hx, hy⟩, ih.2 ⟨hd, hc⟩⟩
    · rw [List.filter_cons_of_neg (by simpa using he), List.map_cons, amountsOn_cons,
        amountsOn_cons, if_neg fun h => he h.2, if_neg fun h => he h.2]
      exact ih

/-- A layer that balances passes the rule of double entry. -/
theorem checkLayer_of_balancesOn {entries : List Entry} {layer : Layer}
    (h : BalancesOn (entries.map Entry.posting) layer) : checkLayer entries layer = .ok () := by
  obtain ⟨debits, credits, hd, hc, heq⟩ := h
  have hsums := foldlM_addToSide_eq_ok.2 ⟨hd, hc⟩
  exact bind_eq_ok.2 ⟨(debits, credits), orOverflow_eq_ok.2 hsums, if_pos heq⟩

end LayeredLedger
