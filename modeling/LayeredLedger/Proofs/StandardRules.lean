import LayeredLedger.Proofs.TagLookup
import LayeredLedger.Proofs.Totals
import LayeredLedger.Rule.Engine

/-!
# The standard rules

The rule of double entry passes every transaction whose sides match, as long as its totals are in
range. Every rule has errors of its own: a layer that does not balance, or a limit that cannot be
read or would be exceeded.

* `context?_forAll`: what a rule for all accounts is given;
* `TagMap.ofTags_cases`, `ofTags_add`: when tags can be read;
* `run_forAll_eq_verdict`, `run_forAll`: a rule for all accounts passes what its check passes;
* **`run_doubleEntry`**: matching sides pass the rule of double entry;
* `error_of_evaluate_standard`: what the standard rules find malformed.
-/

namespace LayeredLedger

/-! ## What a rule is given -/

theorem filterMap_places {α : Type} (l : List α) :
    (l.zipIdx.map Prod.snd).filterMap (fun i => l[i]?) = l := by
  rw [List.filterMap_map]
  have h : l.zipIdx.filterMap ((fun i => l[i]?) ∘ Prod.snd) = l.zipIdx.filterMap
      fun x => some x.1 :=
    List.filterMap_congr fun x hx => by
      rw [Function.comp_apply, List.mem_zipIdx_iff_getElem?.1 hx]
  rw [h, List.filterMap_eq_map', List.zipIdx_map_fst]

/-- A rule for all accounts looks at all entries. -/
theorem context?_forAll (rule : Rule) (layers : List Layer) (t : Transaction) (tags : TagMap)
    (lookup : BalanceLookup) : ∃ ctx, (Registration.forAll rule layers).context? t tags lookup =
      some ctx ∧ ctx.entries = t.entries ∧ ctx.layers = layers ∧ ctx.transaction = t ∧
        ctx.tags = tags ∧ ctx.lookup = lookup := by
  refine ⟨_, rfl, ?_, rfl, rfl, rfl, rfl⟩
  have hall : t.entries.zipIdx.filter
      (fun x => (Registration.forAll rule layers).looksAt x.1) = t.entries.zipIdx :=
    List.filter_eq_self.2 fun _ _ => rfl
  simp only [RuleContext.entries, Registration.offsets]
  rw [hall, filterMap_places]

/-! ## Tags -/

namespace TagMap

variable (strict : TagKey → Bool) {p : String × String}

/-- The pair is one of a limit that must be a decimal, and is none. -/
def isUnreadable (p : String × String) : Bool :=
  (TagKey.ofName p.1).isLimit ∧ strict (.ofName p.1) ∧ Decimal.parse? p.2 = none

variable {strict}

theorem putPair_of_isUnreadable (h : isUnreadable strict p = true) (m : TagMap) :
    putPair strict m p = .error (.invalidLimitTag p.1 p.2) := by
  obtain ⟨hlimit, hstrict, hparse⟩ := of_decide_eq_true h
  simp [putPair, readTagValue, hlimit, hstrict, hparse, Except.map]

theorem exists_putPair (h : isUnreadable strict p = false) (m : TagMap) :
    ∃ m', putPair strict m p = .ok m' := by
  have hread : ∃ v, readTagValue strict p.1 p.2 = .ok v := by
    unfold readTagValue
    by_cases hlimit : (TagKey.ofName p.1).isLimit = true
    · cases hparse : Decimal.parse? p.2 with
      | some amount => simp [hlimit]
      | none =>
        have hstrict : strict (.ofName p.1) = false := by
          simpa [isUnreadable, hlimit, hparse] using h
        simp [hlimit, hstrict]
    · by_cases hmarker : (TagKey.ofName p.1).isMarker = true <;> simp [hlimit, hmarker]
  obtain ⟨v, hv⟩ := hread
  exact ⟨_, map_eq_ok.2 ⟨v, hv, rfl⟩⟩

/-- Tags are read up to the first limit that must be a decimal and is none. -/
theorem ofTags_cases (strict : TagKey → Bool) (tags : Tags) :
    (∃ p, tags.pairs.find? (isUnreadable strict) = some p ∧
      ofTags strict tags = .error (.invalidLimitTag p.1 p.2)) ∨
    tags.pairs.find? (isUnreadable strict) = none ∧ ∃ m, ofTags strict tags = .ok m := by
  have hbad : ∀ m p, isUnreadable strict p = true →
      putPair strict m p = .error (.invalidLimitTag p.1 p.2) :=
    fun m _ h => putPair_of_isUnreadable h m
  exact foldlM_cases hbad (fun m _ h => exists_putPair h m) tags.pairs ∅

end TagMap

/-- Tags stay in order when a text is added whose key is no limit. -/
theorem ofTags_add {strict : TagKey → Bool} {s : Tags} {m : TagMap} {text key value : String}
    (hs : TagMap.ofTags strict s = .ok m) (hp : pair? text = some (key, value))
    (hlimit : (TagKey.ofName key).isLimit = false) :
    ∃ m', TagMap.ofTags strict (s.add text) = .ok m' := by
  obtain ⟨m', hput⟩ := TagMap.exists_putPair (p := (key, value))
    (by simp [TagMap.isUnreadable, hlimit] : TagMap.isUnreadable strict (key, value) = false) m
  unfold TagMap.ofTags at hs ⊢
  rcases Tags.pairs_add (s := s) hp with h | h
  · rw [h]
    exact ⟨m, hs⟩
  · rw [h, List.foldlM_append]
    exact ⟨m', bind_eq_ok.2 ⟨m, hs, bind_eq_ok.2 ⟨m', hput, rfl⟩⟩⟩

/-! ## Rules -/

/-- A rule for all accounts judges by what its check comes to. -/
theorem run_forAll_eq_verdict {rule : Rule} {layers : List Layer} {t : Transaction}
    {tags : TagMap} {lookup : BalanceLookup} {result : Except Failure Unit}
    (h : ∀ ctx : RuleContext, ctx.entries = t.entries → ctx.layers = layers →
      ctx.transaction = t → ctx.tags = tags → ctx.lookup = lookup → rule.check ctx = result) :
    (Registration.forAll rule layers).run t tags lookup =
      (Registration.forAll rule layers).verdict result := by
  obtain ⟨ctx, hctx, hentries, hlayers, ht, htags, hlookup⟩ :=
    context?_forAll rule layers t tags lookup
  rw [Registration.run, hctx, ← h ctx hentries hlayers ht htags hlookup]
  rfl

/-- A rule for all accounts passes what its check passes. -/
theorem run_forAll {rule : Rule} {layers : List Layer} {t : Transaction} {tags : TagMap}
    {lookup : BalanceLookup}
    (h : ∀ ctx : RuleContext, ctx.entries = t.entries → ctx.layers = layers →
      ctx.transaction = t → ctx.tags = tags → ctx.lookup = lookup → rule.check ctx = .ok ()) :
    (Registration.forAll rule layers).run t tags lookup = .ok () :=
  run_forAll_eq_verdict h

/-- **Matching sides pass the rule of double entry**, if the totals are in range. -/
theorem run_doubleEntry {t : Transaction} {totals : Totals} (hm : SidesMatch t.postings)
    (ht : t.entries.foldlM addEntry ∅ = .ok totals) (layers : List Layer) (tags : TagMap)
    (lookup : BalanceLookup) :
    (Registration.forAll doubleEntry layers).run t tags lookup = .ok () :=
  run_forAll fun ctx hentries _ _ _ _ => by
    change ctx.layers.forM (checkLayer ctx.entries) = .ok ()
    rw [hentries]
    exact forM_eq_ok_iff.2 fun layer _ => checkLayer_of_balancesOn (hm.balancesOn ht layer)

/-! ## What the standard rules find fault with -/

/-- Tags are refused for a limit that is no decimal. -/
theorem error_of_ofTags {strict : TagKey → Bool} {tags : Tags} {e : LedgerError}
    (h : TagMap.ofTags strict tags = .error e) : ∃ name value, e = .invalidLimitTag name value := by
  rcases TagMap.ofTags_cases strict tags with ⟨p, -, hp⟩ | ⟨-, m, hm⟩
  · exact ⟨p.1, p.2, Except.error.inj (h.symm.trans hp)⟩
  · rw [hm] at h
    cases h

/-- A check of double entry fails for a layer. -/
theorem error_of_doubleEntry {ctx : RuleContext} {e : LedgerError}
    (h : doubleEntry.check ctx = .error (.error e)) :
    ∃ layer debits credits, e = .unbalanced layer debits credits := by
  obtain ⟨layer, -, h⟩ := exists_of_forM_eq_error h
  unfold checkLayer at h
  rcases bind_eq_error.1 h with h | ⟨⟨debits, credits⟩, -, h⟩
  · obtain ⟨o, -, heq⟩ := orOverflow_eq_error.1 h
    cases heq
  · dsimp only at h
    split at h
    · cases h
    · exact ⟨layer, debits, credits, (Failure.error.inj (Except.error.inj h)).symm⟩

/-- A check of a limit fails for a breach of it. -/
theorem error_of_limitRule {kind : LimitKind} {ctx : RuleContext} {e : LedgerError}
    (h : (limitRule kind).check ctx = .error (.error e)) :
    ∃ code limit breach, e = .limitExceeded kind code limit breach := by
  simp only [limitRule] at h
  split at h
  · cases h
  rename_i limit _
  obtain ⟨a, -, h⟩ := exists_of_forM_eq_error h
  rcases bind_eq_error.1 h with h | ⟨impact, -, h⟩
  · obtain ⟨o, -, heq⟩ := orOverflow_eq_error.1 h
    cases heq
  rcases bind_eq_error.1 h with h | ⟨answer, -, h⟩
  · obtain ⟨o, -, heq⟩ := orOverflow_eq_error.1 h
    cases heq
  cases answer with
  | error e' => exact ⟨_, _, _, (Failure.error.inj (Except.error.inj h)).symm⟩
  | ok current =>
    rcases bind_eq_error.1 h with h | ⟨p, -, h⟩
    · obtain ⟨o, -, heq⟩ := orOverflow_eq_error.1 h
      cases heq
    · split at h
      · exact ⟨_, _, _, (Failure.error.inj (Except.error.inj h)).symm⟩
      · cases h

/-- A rule that looks at a transaction reports its own errors, or that it failed. -/
theorem Registration.error_of_run {r : Registration} {t : Transaction} {tags : TagMap}
    {lookup : BalanceLookup} {e : LedgerError} (h : r.run t tags lookup = .error (.error e)) :
    (∃ ctx, r.rule.check ctx = .error (.error e)) ∨ e.category = .rejection := by
  unfold run at h
  split at h
  · cases h
  rename_i ctx _
  generalize hresult : r.rule.check ctx = result at h
  unfold verdict at h
  split at h
  · cases h
  · cases h
  · rename_i e'
    split at h
    · obtain rfl := Failure.error.inj (Except.error.inj h)
      exact .inr rfl
    · split at h
      · obtain rfl := Failure.error.inj (Except.error.inj h)
        exact .inl ⟨ctx, hresult⟩
      · cases h
    · obtain rfl := Failure.error.inj (Except.error.inj h)
      exact .inl ⟨ctx, hresult⟩

/-- The standard rules find a transaction malformed only for a layer that does not balance. -/
theorem error_of_evaluate_standard {currencies : CurrencyRegistry} {t : Transaction}
    {lookup : BalanceLookup} {e : LedgerError}
    (h : (RuleEngine.standard currencies).evaluate t lookup = .error (.error e))
    (hmalformed : e.category = .validation) :
    ∃ layer debits credits, e = .unbalanced layer debits credits := by
  rcases bind_eq_error.1 h with h | ⟨tags, -, h⟩
  · obtain ⟨e', he', heq⟩ := orError_eq_error.1 h
    obtain rfl := Failure.error.inj heq
    obtain ⟨name, value, rfl⟩ := error_of_ofTags he'
    cases hmalformed
  obtain ⟨r, hr, h⟩ := exists_of_forM_eq_error h
  rcases Registration.error_of_run h with ⟨ctx, hcheck⟩ | hrejection
  · have hlimit : ∀ kind, (limitRule kind).check ctx ≠ .error (.error e) := fun kind hbreach => by
      obtain ⟨code, limit, breach, rfl⟩ := error_of_limitRule hbreach
      cases hmalformed
    simp only [RuleEngine.standard, List.mem_cons, List.not_mem_nil, or_false] at hr
    rcases hr with rfl | rfl | rfl
    · exact error_of_doubleEntry hcheck
    · exact absurd hcheck (hlimit .daily)
    · exact absurd hcheck (hlimit .cumulative)
  · rw [hrejection] at hmalformed
    cases hmalformed

end LayeredLedger
