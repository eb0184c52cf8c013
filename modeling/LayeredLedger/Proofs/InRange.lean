import LayeredLedger.Proofs.LimitRules
import LayeredLedger.Proofs.Rounding
import LayeredLedger.Proofs.StandardVerdict

/-!
# Transactions in range

The checks of a transaction add up amounts: those on a side of a layer, in validation and in the
rule of double entry, and what it does to an account on a limit layer, with the usage that the
account has. If all of this, rounded up to whole numbers, is in range, then every check comes to a
verdict.

* `Answered`: an operation that has a result or an error of the ledger;
* `loadOn`, `loadOf`: what postings come to, in whole numbers;
* `Tags.AskForLimit`, `Transaction.Fits`: all that is added up is in range;
* `answered_validate`, `answered_checkLayer`, `answered_checkUsage`: the checks;
* `Rule.IsSafe`, **`answered_evaluate`**: engines of the ledger's rules and of others that do not
  leave the range by themselves;
* `validate_eq_overflow`: a side of a layer that is out of range.
-/

namespace LayeredLedger

/-! ## Verdicts -/

/-- There is a result or an error of the ledger, so no sum was out of range. -/
inductive Answered {α : Type} : Except Failure α → Prop where
  | ok (a : α) : Answered (.ok a)
  | error (e : LedgerError) : Answered (.error (.error e))

namespace Answered

variable {α β : Type} {x : Except Failure α}

theorem bind (hx : Answered x) {f : α → Except Failure β} (hf : ∀ a, x = .ok a → Answered (f a)) :
    Answered (x >>= f) := by
  cases hx with
  | ok a => exact hf a rfl
  | error e => exact .error e

theorem of_orError (x : Except LedgerError α) : Answered (orError x) := by
  cases x with
  | ok a => exact .ok a
  | error e => exact .error e

theorem of_orOverflow {x : Except Overflow α} (h : ∃ a, x = .ok a) : Answered (orOverflow x) := by
  obtain ⟨a, rfl⟩ := h
  exact .ok a

theorem forM {l : List α} {f : α → Except Failure Unit} (h : ∀ a ∈ l, Answered (f a)) :
    Answered (l.forM f) := by
  generalize hx : l.forM f = result
  cases result with
  | ok a => exact .ok a
  | error e =>
    obtain ⟨a, ha, hfail⟩ := exists_of_forM_eq_error hx
    cases e with
    | error e => exact .error e
    | overflow o => cases hfail ▸ h a ha

theorem mapM {l : List α} {f : α → Except Failure β} (h : ∀ a ∈ l, Answered (f a)) :
    Answered (l.mapM f) := by
  generalize hx : l.mapM f = result
  cases result with
  | ok bs => exact .ok bs
  | error e =>
    obtain ⟨a, ha, hfail⟩ := exists_of_mapM_eq_error hx
    cases e with
    | error e => exact .error e
    | overflow o => cases hfail ▸ h a ha

end Answered

/-! ## Loads -/

/-- What the postings on a side of a layer come to at most, in whole numbers. -/
def loadOn (side : Side) (layer : Layer) (ps : List Posting) : Nat :=
  Decimal.load (amountsOn side layer ps)

/-- What all postings come to at most, in whole numbers. -/
def loadOf (ps : List Posting) : Nat := Decimal.load (ps.map Posting.amount)

section Loads

variable (side : Side) (layer : Layer)

@[simp] theorem loadOn_nil : loadOn side layer [] = 0 := rfl

theorem loadOn_cons (p : Posting) (ps : List Posting) : loadOn side layer (p :: ps) =
    (if p.side = side ∧ p.layer = layer then p.amount.roundedUp else 0) +
      loadOn side layer ps := by
  rw [loadOn, amountsOn_cons]
  split <;> simp [loadOn]

@[simp] theorem loadOn_append (ps qs : List Posting) :
    loadOn side layer (ps ++ qs) = loadOn side layer ps + loadOn side layer qs := by
  simp [loadOn]

theorem loadOn_opposite (ps : List Posting) :
    loadOn side layer (ps.map Posting.opposite) = loadOn side.opposite layer ps := by
  rw [loadOn, loadOn, amountsOn_opposite]

theorem loadOn_le_of_sublist {ps qs : List Posting} (h : ps.Sublist qs) :
    loadOn side layer ps ≤ loadOn side layer qs :=
  Decimal.load_le_of_sublist ((h.filter _).map _)

theorem loadOn_eq_zero {ps : List Posting} (h : ∀ p ∈ ps, p.layer ≠ layer) :
    loadOn side layer ps = 0 := by
  have hnone : ps.filter (fun p => decide (p.side = side ∧ p.layer = layer)) = [] :=
    List.filter_eq_nil_iff.2 fun p hp => by simp [h p hp]
  rw [loadOn, amountsOn, hnone]
  rfl

/-- The two sides of a layer are what is posted on the layer. -/
theorem loadOn_add_loadOn (ps : List Posting) :
    loadOn .debit layer ps + loadOn .credit layer ps =
      loadOf (ps.filter fun p => p.layer = layer) := by
  induction ps with
  | nil => rfl
  | cons p ps ih =>
    rw [loadOn_cons, loadOn_cons, List.filter_cons]
    by_cases hlayer : p.layer = layer
    · have hload : loadOf (p :: ps.filter fun p => p.layer = layer) =
          p.amount.roundedUp + loadOf (ps.filter fun p => p.layer = layer) := Decimal.load_cons _ _
      cases hside : p.side <;> simp [hlayer, hload, ← ih] <;> omega
    · simp [hlayer, ih]

theorem loadOn_add_loadOn_le (ps : List Posting) :
    loadOn .debit layer ps + loadOn .credit layer ps ≤ loadOf ps := by
  rw [loadOn_add_loadOn]
  exact Decimal.load_le_of_sublist (List.filter_sublist.map _)

theorem loadOn_le_loadOf (ps : List Posting) : loadOn side layer ps ≤ loadOf ps := by
  have h := loadOn_add_loadOn_le layer ps
  cases side <;> omega

end Loads

/-- The tags have a limit, so balances are asked for. -/
def Tags.AskForLimit (s : Tags) : Prop := ∃ kind : LimitKind, (s.get? kind.tagKey.name).isSome

/-- All that the checks of a transaction add up is in range, if no usage is above a whole number.
Without a limit no usage counts. -/
structure Transaction.Fits (t : Transaction) (usage : Nat) : Prop where
  sides : ∀ side layer, loadOn side layer t.postings < mantissaBound
  limits : t.tags.AskForLimit → ∀ (kind : LimitKind) (id : CurrencyId),
    loadOn .debit (.of kind.band id) t.postings + loadOn .credit (.of kind.band id) t.postings +
      usage < mantissaBound

/-- A transaction fits if all that it posts does, whatever the sides and the layers. -/
theorem Transaction.fits_of_loadOf {t : Transaction} {usage : Nat}
    (h : loadOf t.postings + usage < mantissaBound) : t.Fits usage where
  sides side layer := by
    have := loadOn_le_loadOf side layer t.postings
    omega
  limits _ kind id := by
    have := loadOn_add_loadOn_le (.of kind.band id) t.postings
    omega

/-! ## Validation -/

/-- The test of amounts adds up what the totals add up, as far as it goes. -/
theorem answered_foldlM_addValidEntry {entries : List Entry} {totals totals' : Totals}
    (h : entries.foldlM addEntry totals = .ok totals') :
    Answered (entries.foldlM addValidEntry totals) := by
  induction entries generalizing totals with
  | nil => exact .ok totals
  | cons e entries ih =>
    rw [List.foldlM_cons] at h ⊢
    obtain ⟨next, hnext, h⟩ := bind_eq_ok.1 h
    by_cases he : e.amount ≤ 0
    · rw [addValidEntry, if_pos he]
      exact .error _
    · rw [addValidEntry, if_neg he, hnext]
      exact ih h

theorem exists_sum_of_loadOn {side : Side} {layer : Layer} {ps : List Posting}
    (h : loadOn side layer ps < mantissaBound) :
    ∃ sum, Decimal.sum (amountsOn side layer ps) = .ok sum := by
  obtain ⟨sum, hsum, -⟩ := Decimal.exists_sum h
  exact ⟨sum, hsum⟩

theorem answered_validate {entries : List Entry}
    (h : ∀ side layer, loadOn side layer (entries.map Entry.posting) < mantissaBound) :
    Answered (validate entries) := by
  unfold validate
  split
  · exact .error _
  · obtain ⟨totals, htotals⟩ : ∃ totals, entries.foldlM addEntry ∅ = .ok totals :=
      exists_foldlM_addEntry fun side layer => by
        rw [Totals.on_at_empty]
        exact exists_sum_of_loadOn (h side layer)
    refine (answered_foldlM_addValidEntry htotals).bind fun totals _ => ?_
    split
    · exact .error _
    · exact .ok ()

theorem LayerTotals.error_of_add {t : LayerTotals} {side : Side} {amount : Decimal} {o : Overflow}
    (h : t.add side amount = .error o) : o = .addition := by
  cases side <;> exact Decimal.error_of_add (map_eq_error.1 h)

theorem error_of_foldlM_addEntry {entries : List Entry} {totals : Totals} {o : Overflow}
    (h : entries.foldlM addEntry totals = .error o) : o = .addition := by
  obtain ⟨totals, e, -, h⟩ := exists_of_foldlM_eq_error h
  exact LayerTotals.error_of_add (map_eq_error.1 h)

/-- Amounts above zero are not negative in units. -/
theorem units_nonneg_of_mem_amountsOn {entries : List Entry} (hpos : ∀ e ∈ entries, 0 < e.amount)
    {side : Side} {layer : Layer} {x : Decimal}
    (hx : x ∈ amountsOn side layer (entries.map Entry.posting)) : 0 ≤ x.units := by
  obtain ⟨p, hp, rfl⟩ := List.mem_map.1 hx
  obtain ⟨e, he, rfl⟩ := List.mem_map.1 (List.mem_filter.1 hp).1
  exact (Decimal.lt_iff_units.1 (hpos e he)).le

/-- **A side of a layer whose whole parts are out of range cannot be validated.** -/
theorem validate_eq_overflow {entries : List Entry} (hpos : ∀ e ∈ entries, 0 < e.amount)
    {side : Side} {layer : Layer} (h : mantissaBound ≤
      Decimal.wholeLoad (amountsOn side layer (entries.map Entry.posting))) :
    validate entries = .error (.overflow .addition) := by
  have hne : entries ≠ [] := by
    rintro rfl
    have hnone : mantissaBound ≤ 0 := h
    exact absurd hnone (by decide)
  have hfail := Decimal.sum_eq_error (fun x hx => units_nonneg_of_mem_amountsOn hpos hx) h
  cases htotals : entries.foldlM addEntry ∅ with
  | ok totals =>
    have hsum := foldlM_addEntry htotals side layer
    rw [Totals.on_at_empty] at hsum
    cases hfail.symm.trans hsum
  | error o =>
    obtain rfl := error_of_foldlM_addEntry htotals
    rw [validate, if_neg (by simpa using hne), foldlM_addValidEntry hpos, htotals]
    rfl

/-! ## Rules -/

/-- What a rule is given of a transaction. -/
theorem Registration.of_context? {r : Registration} {t : Transaction} {tags : TagMap}
    {lookup : BalanceLookup} {ctx : RuleContext} (h : r.context? t tags lookup = some ctx) :
    ctx.transaction = t ∧ ctx.tags = tags ∧ ctx.lookup = lookup ∧
      ctx.entries = t.entries.filter r.looksAt := by
  have hoffsets : ctx.transaction = t ∧ ctx.tags = tags ∧ ctx.lookup = lookup ∧
      ctx.offsets = r.offsets t := by
    unfold context? at h
    dsimp only at h
    split at h
    · obtain rfl := Option.some.inj h
      exact ⟨rfl, rfl, rfl, rfl⟩
    · obtain ⟨e, -, rfl⟩ := Option.map_eq_some_iff.1 h
      exact ⟨rfl, rfl, rfl, rfl⟩
  obtain ⟨rfl, rfl, rfl, hoffsets⟩ := hoffsets
  refine ⟨rfl, rfl, rfl, ?_⟩
  have hplaces : (ctx.transaction.entries.zipIdx.filter fun x => r.looksAt x.1).filterMap
      ((fun i => ctx.transaction.entries[i]?) ∘ Prod.snd) =
      (ctx.transaction.entries.zipIdx.filter fun x => r.looksAt x.1).filterMap
        fun x => some x.1 :=
    List.filterMap_congr fun x hx => by
      rw [Function.comp_apply, List.mem_zipIdx_iff_getElem?.1 (List.mem_filter.1 hx).1]
  have hfirst : (ctx.transaction.entries.zipIdx.filter (r.looksAt ∘ Prod.fst)).map Prod.fst =
      ctx.transaction.entries.filter r.looksAt := by
    rw [← List.filter_map, List.zipIdx_map_fst]
  rw [RuleContext.entries, hoffsets, offsets, List.filterMap_map, hplaces, List.filterMap_eq_map']
  exact hfirst

/-- The rule is one of the ledger's, or one that never leaves the range by itself. -/
inductive Rule.IsSafe : Rule → Prop where
  | doubleEntry : IsSafe doubleEntry
  | limit (kind : LimitKind) : IsSafe (limitRule kind)
  | other {rule : Rule} (h : ∀ ctx, Answered (rule.check ctx)) : IsSafe rule

section Checks

variable {ctx : RuleContext} {usage : Nat} (hfits : ctx.transaction.Fits usage)

include hfits

theorem answered_checkLayer (hsub : ctx.entries.Sublist ctx.transaction.entries) (layer : Layer) :
    Answered (checkLayer ctx.entries layer) := by
  have hside (side : Side) :
      ∃ sum, Decimal.sum (amountsOn side layer (ctx.entries.map Entry.posting)) = .ok sum :=
    exists_sum_of_loadOn (lt_of_le_of_lt (loadOn_le_of_sublist side layer (hsub.map _))
      (hfits.sides side layer))
  obtain ⟨debits, hdebits⟩ := hside .debit
  obtain ⟨credits, hcredits⟩ := hside .credit
  have hsums := foldlM_addToSide_eq_ok.2 ⟨hdebits, hcredits⟩
  refine (Answered.of_orOverflow ⟨_, hsums⟩).bind fun sums _ => ?_
  dsimp only
  split
  · exact .ok ()
  · exact .error _

/-- What a transaction does to an account on a limit layer is at most what it posts there. -/
theorem exists_transactionImpact (hlimit : ctx.transaction.tags.AskForLimit) (kind : LimitKind)
    (a : Account) :
    ∃ impact, transactionImpact ctx.transaction a.id (kind.usageLayer a) = .ok impact ∧
      ∃ bound : Nat, impact.Between (-bound) bound ∧ bound + usage < mantissaBound := by
  have hload : Decimal.load ((ctx.transaction.entries.filter fun e =>
      e.account.id = a.id ∧ e.layer = kind.usageLayer a).map Entry.impact) ≤
      loadOn .debit (kind.usageLayer a) ctx.transaction.postings +
        loadOn .credit (kind.usageLayer a) ctx.transaction.postings := by
    rw [loadOn_add_loadOn, Transaction.postings, List.filter_map, loadOf, List.map_map]
    -- the sign of an impact does not count, and other accounts only add to the load
    have hsign (l : List Entry) : Decimal.load (l.map Entry.impact) =
        Decimal.load (l.map (Posting.amount ∘ Entry.posting)) := by
      induction l with
      | nil => rfl
      | cons e l ih =>
        have hfirst : e.impact.roundedUp = e.amount.roundedUp := by
          unfold Entry.impact
          split <;> simp
        rw [List.map_cons, List.map_cons, Decimal.load_cons, Decimal.load_cons, ih, hfirst]
        rfl
    rw [hsign]
    refine Decimal.load_le_of_sublist (List.Sublist.map _ ?_)
    refine List.monotone_filter_right _ fun e he => ?_
    exact decide_eq_true (of_decide_eq_true he).2
  have hbound : loadOn .debit (kind.usageLayer a) ctx.transaction.postings +
      loadOn .credit (kind.usageLayer a) ctx.transaction.postings + usage < mantissaBound :=
    hfits.limits hlimit kind a.currencyId
  obtain ⟨impact, himpact, hbetween⟩ := Decimal.exists_sum
    (lt_of_le_of_lt hload (by omega))
  exact ⟨impact, himpact, _, hbetween, by omega⟩

variable {answers : Answers} (hlookup : ctx.lookup = fun q => .ok (answers q))
  (husage : ∀ q current, answers q = .ok current → current.roundedUp ≤ usage)

include hlookup husage

theorem answered_checkUsage (hlimit : ctx.transaction.tags.AskForLimit) (kind : LimitKind)
    (limit : Decimal) (a : Account) : Answered (kind.checkUsage ctx limit a) := by
  obtain ⟨impact, himpact, bound, hbetween, hbound⟩ :=
    exists_transactionImpact hfits hlimit kind a
  refine (Answered.of_orOverflow ⟨impact, himpact⟩).bind fun impact' himpact' => ?_
  obtain rfl : impact = impact' :=
    Except.ok.inj (himpact.symm.trans (orOverflow_eq_ok.1 himpact'))
  refine (Answered.of_orOverflow (by rw [hlookup]; exact ⟨_, rfl⟩)).bind fun answer hanswer => ?_
  cases answer with
  | error e => exact .error _
  | ok current =>
    have hcurrent : current.roundedUp ≤ usage := by
      rw [hlookup] at hanswer
      exact husage _ current (Except.ok.inj (orOverflow_eq_ok.1 hanswer))
    obtain ⟨projected, hprojected⟩ := Decimal.exists_add current.between_roundedUp hbetween
      (by omega) (by omega)
    refine (Answered.of_orOverflow ⟨_, map_eq_ok.2 ⟨projected, hprojected, rfl⟩⟩).bind
      fun p _ => ?_
    split
    · exact .error _
    · exact .ok ()

theorem Rule.IsSafe.answered_check {rule : Rule} (hrule : rule.IsSafe)
    (hsub : ctx.entries.Sublist ctx.transaction.entries) {engine : RuleEngine}
    (htags : engine.tagsFor ctx.transaction = .ok ctx.tags) : Answered (rule.check ctx) := by
  cases hrule with
  | doubleEntry => exact .forM fun layer _ => answered_checkLayer hfits hsub layer
  | limit kind =>
    simp only [limitRule]
    split
    · exact .ok ()
    · rename_i limit hdecimal
      obtain ⟨text, htext, -⟩ :=
        Option.bind_eq_some_iff.1 (Transaction.setsLimit_of_decimal? htags hdecimal)
      have hlimit : ctx.transaction.tags.AskForLimit := ⟨kind, Option.isSome_of_eq_some htext⟩
      exact .forM fun a _ => answered_checkUsage hfits hlookup husage hlimit kind limit a
  | other h => exact h ctx

end Checks

theorem Rule.isSafe_of_standard {currencies : CurrencyRegistry} {r : Registration}
    (h : r ∈ RuleEngine.standard currencies) : r.rule.IsSafe := by
  simp only [RuleEngine.standard, List.mem_cons, List.not_mem_nil, or_false] at h
  rcases h with rfl | rfl | rfl
  · exact .doubleEntry
  · exact .limit .daily
  · exact .limit .cumulative

theorem Registration.answered_verdict (r : Registration) {result : Except Failure Unit}
    (h : Answered result) : Answered (r.verdict result) := by
  cases h with
  | ok => exact .ok ()
  | error e =>
    unfold verdict
    dsimp only
    split
    · exact .error _
    · split
      · exact .error _
      · exact .ok ()
    · exact .error _

section Engine

variable {engine : RuleEngine} (hrules : ∀ r ∈ engine, r.rule.IsSafe) {answers : Answers}
  {usage : Nat} (husage : ∀ q current, answers q = .ok current → current.roundedUp ≤ usage)

include hrules husage

/-- **Safe rules come to a verdict about every transaction that fits.** -/
theorem answered_evaluate {t : Transaction} (hfits : t.Fits usage) :
    Answered (engine.evaluate t fun q => .ok (answers q)) := by
  refine (Answered.of_orError _).bind fun tags htags => .forM fun r hr => ?_
  unfold Registration.run
  split
  · exact .ok ()
  · rename_i ctx hctx
    obtain ⟨rfl, rfl, hlookup, hentries⟩ := Registration.of_context? hctx
    have hsub : ctx.entries.Sublist ctx.transaction.entries := hentries ▸ List.filter_sublist
    exact r.answered_verdict ((hrules r hr).answered_check hfits hlookup husage hsub
      (orError_eq_ok.1 htags))

end Engine

end LayeredLedger
