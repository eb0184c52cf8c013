import LayeredLedger.Proofs.DoubleEntry
import LayeredLedger.Proofs.LimitSoundness

/-!
# On the limit layers

Usage is recorded against the asset bridge, and whoever pays is credited. So on a limit layer a
created transaction has nothing but bridges and payers, and what it adds to the net of a payer is
not above zero. Of a transaction whose sides match, the rules ask for nothing but readable tags and
usage within the limits.

* `evaluate_standard_iff`: what the standard rules ask for;
* `IsDraft.counts_iff`: which entries count as usage;
* `of_mem_usageLegs`, `IsDraft.isBridge_or_payer`: who is on the limit layers;
* **`IsDraft.netAt_nonpos`**: usage is recorded as credits.
-/

namespace LayeredLedger

/-! ## What the rules ask for -/

/-- The standard rules pass a transaction whose sides match if they can read its tags and every
entry that counts is on an account with usage within the limit. -/
theorem evaluate_standard_iff {currencies : CurrencyRegistry} {t : Transaction} {totals : Totals}
    {lookup : BalanceLookup} {known : Set Account} (hknown : known.InjOn Account.id)
    (hwithin : t.Within known) (hm : SidesMatch t.postings)
    (ht : t.entries.foldlM addEntry ∅ = .ok totals) :
    (RuleEngine.standard currencies).evaluate t lookup = .ok () ↔
      (∃ tags, (RuleEngine.standard currencies).tagsFor t = .ok tags) ∧
      ∀ (kind : LimitKind) limit, t.SetsLimit kind limit → ∀ e ∈ t.entries,
        kind.counts (currencies.layers [kind.band]) e = true →
        ∃ p, kind.UsageWithin lookup t e.account limit p := by
  constructor
  · intro hpass
    obtain ⟨tags, htags, -⟩ := bind_eq_ok.1 hpass
    refine ⟨⟨tags, orError_eq_ok.1 htags⟩, fun kind limit hlimit e he hcounts => ?_⟩
    obtain ⟨e', he', hid, -, p, hp⟩ := usageWithin_of_evaluate hpass hlimit he hcounts
    have hsame : e'.account = e.account := hknown (hwithin e' he') (hwithin e he) hid
    exact ⟨p, hsame ▸ hp⟩
  · rintro ⟨⟨tags, htags⟩, hlimits⟩
    refine evaluate_of_usageWithin htags hm ht fun kind limit hlimit a ha => ?_
    obtain ⟨e, he, hcounts, rfl⟩ := LimitKind.exists_of_mem_checkpoints ha
    exact hlimits kind limit hlimit e he hcounts

/-! ## Who is there -/

/-- Usage is credited to the payer, unless the leg is that of a bridge. -/
theorem of_mem_usageLegs {s : LedgerService} {chart : Chart} {p : EntryPlan} (hp : IsPlan s chart p)
    {x : EntrySpec} (hx : x ∈ usageLegs p) :
    x.account.isBridge = true ∨ x.account = p.debit ∧ x.side = .credit := by
  unfold usageLegs at hx
  split at hx
  · cases hbridge : p.assetBridge? with
    | none => simp [hbridge] at hx
    | some bridge =>
      have hasset : p.bridge? .asset = some bridge := hbridge
      have hkind : bridge.isBridge = true := by
        rw [Account.isBridge, Account.bridgeRole?, (hp.bridge_currency hasset).1]
        rfl
      simp only [hbridge, usageOn, List.mem_append, List.mem_cons, List.not_mem_nil,
        or_false] at hx
      rcases hx with (rfl | rfl) | rfl | rfl
      · exact .inl hkind
      · exact .inr ⟨rfl, rfl⟩
      · exact .inl hkind
      · exact .inr ⟨rfl, rfl⟩
  · simp at hx

namespace IsDraft

variable {s : LedgerService} {request : TransactionRequest} {chart : Chart} {t : Transaction}
  {strategy : Strategy} {plans : List EntryPlan} (hd : IsDraft s request chart t strategy plans)
  {e : Entry} (he : e ∈ t.entries) {kind : LimitKind}

include hd

theorem pos (he : e ∈ t.entries) : 0 < e.amount := by
  obtain ⟨p, hp, x, hx, rfl⟩ := hd.exists_leg he
  change 0 < x.amount
  rw [(hd.isLegOf hp hx).amount]
  exact (hd.plan p hp).amount_pos

include he

/-- Usage is what an account other than a bridge has on its limit layer. -/
theorem counts_iff : kind.counts (s.currencies.layers [kind.band]) e = true ↔
    e.layer = kind.usageLayer e.account ∧ e.account.isBridge = false := by
  obtain ⟨hregistered, band, -, hlayer⟩ := hd.registers he
  have hband : e.layer.isInBand kind.band = decide (band = kind.band) := by
    rw [hlayer, Layer.isInBand_of]
  constructor
  · intro hcounts
    simp only [LimitKind.counts, Bool.and_eq_true, Bool.not_eq_true'] at hcounts
    obtain ⟨⟨⟨hin, -⟩, -⟩, hbridge⟩ := hcounts
    rw [hband, decide_eq_true_eq] at hin
    exact ⟨by rw [hlayer, hin]; rfl, hbridge⟩
  · rintro ⟨husage, hbridge⟩
    have hkind : band = kind.band := (Layer.of_injective (hlayer.symm.trans husage)).1
    have hmem : e.layer ∈ s.currencies.layers [kind.band] := by
      rw [husage]
      exact CurrencyRegistry.mem_layers hregistered (List.mem_singleton.2 rfl)
    simp [LimitKind.counts, hband, hkind, hmem, hd.holdsBalances he, hbridge]

/-- On limit layers there are only bridges, and payers that are credited. -/
theorem isBridge_or_payer (hband : e.layer.isInBand kind.band = true) :
    e.account.isBridge = true ∨ (∃ p ∈ plans, e.account = p.debit) ∧ e.side = .credit := by
  obtain ⟨p, hp, x, hx, rfl⟩ := hd.exists_leg he
  have hother : ∀ bands, kind.band ∉ bands → ¬IsLegOf p bands x := fun bands hkind hleg => by
    obtain ⟨band, hmem, hlayer⟩ := hleg.layer
    have hband : x.layer.isInBand kind.band = true := hband
    rw [hlayer, EntryPlan.layer, Layer.isInBand_of, decide_eq_true_eq] at hband
    exact hkind (hband ▸ hmem)
  by_cases hdirect : strategy = .direct
  · subst hdirect
    have hx : x ∈ directLegs p := hx
    simp only [directLegs, List.mem_append] at hx
    rcases hx with (hx | hx) | hx
    · exact absurd (transferLegs_isLegOf (List.mem_singleton.2 rfl) x hx)
        (hother [.base] (by cases kind <;> decide))
    · exact absurd (feeLegs_isLegOf (List.mem_singleton.2 rfl) x hx)
        (hother [.fee] (by cases kind <;> decide))
    · exact (of_mem_usageLegs (hd.plan p hp) hx).imp_right fun h => ⟨⟨p, hp, h.1⟩, h.2⟩
  · exact absurd (hd.isLegOf hp hx)
      (hother _ fun hmem => Strategy.band_ne_limit hdirect hmem kind rfl)

omit he in
/-- **Usage is recorded as credits.** -/
theorem netAt_nonpos {known : Set Account} (hknown : known.InjOn Account.id)
    (hchart : chart.Within known) {a : Account} (ha : a ∈ known) (hbridge : a.isBridge = false)
    (journal : JournalId) (kind : LimitKind) :
    t.netAt ⟨journal, a.id, kind.usageLayer a⟩ ≤ 0 := by
  unfold Transaction.netAt
  split
  · refine net_nonpos _ _ fun q hq hid hlayer => ?_
    obtain ⟨e, he, rfl⟩ := List.mem_map.1 hq
    have hsame : e.account = a := hknown (hd.within hchart e he) ha (of_decide_eq_true hid)
    have hband : e.layer.isInBand kind.band = true := by
      rw [show e.layer = kind.usageLayer a from hlayer, LimitKind.usageLayer, Layer.isInBand_of]
      exact decide_eq_true rfl
    obtain ⟨-, hcredit⟩ := (hd.isBridge_or_payer he hband).resolve_left
      (by rw [hsame, hbridge]; decide)
    have hcredit : e.posting.side = .credit := hcredit
    have hamount : (0 : Decimal).units < e.posting.amount.units := hd.pos he
    rw [Decimal.units_zero] at hamount
    rw [Posting.signedUnits_eq, hcredit, Side.oriented]
    omega
  · exact le_rfl

end IsDraft

end LayeredLedger
