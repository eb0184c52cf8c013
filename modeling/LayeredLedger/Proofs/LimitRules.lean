import LayeredLedger.Proofs.StandardRules

/-!
# What the limit rules let pass

A limit rule reads the limit from the tags, picks the accounts to check from the entries, and
asks for the usage of each. A transaction that the standard rules pass went through all of it: for
every entry that counts as usage there is an answer, and the answer and the impact of the
transaction together are not above the limit. Of a transaction in order nothing more is asked.

* `TagMap.get?_ofTags`, `Transaction.SetsLimit`, `Transaction.setsLimit_of_decimal?`: the limit of
  a transaction, read from its tags;
* `LimitKind.exists_checkpoint`, `LimitKind.exists_of_mem_checkpoints`,
  `LimitKind.checkpoints_eq_nil`: the accounts to check;
* `LimitKind.UsageWithin`, `LimitKind.checkUsage_eq_ok`: one check;
* **`usageWithin_of_evaluate`**: every entry that counts is checked;
* `evaluate_of_usageWithin`, `evaluate_standard`: nothing else is.
-/

namespace LayeredLedger

/-! ## The limit -/

theorem TagMap.get?_putPair {strict : TagKey → Bool} {m m' : TagMap} {key text : String}
    (h : TagMap.putPair strict m (key, text) = .ok m') :
    ∃ v, readTagValue strict key text = .ok v ∧ m'.get? (.ofName key) = some v := by
  obtain ⟨v, hv, rfl⟩ := map_eq_ok.1 h
  exact ⟨v, hv, by rw [get?_put, if_pos rfl]⟩

theorem TagMap.get?_putPair_of_ne {strict : TagKey → Bool} {m m' : TagMap}
    {p : String × String} {key : String} (h : TagMap.putPair strict m p = .ok m')
    (hne : p.1 ≠ key) : m'.get? (.ofName key) = m.get? (.ofName key) := by
  obtain ⟨v, -, rfl⟩ := map_eq_ok.1 h
  rw [get?_put, if_neg fun e => hne (TagKey.ofName_injective e).symm]

/-- The last value under a key is the one that rules get to see. -/
theorem TagMap.get?_ofTags {strict : TagKey → Bool} {s : Tags} {m : TagMap} {key text : String}
    (h : TagMap.ofTags strict s = .ok m) (hs : s.get? key = some text) :
    ∃ v, readTagValue strict key text = .ok v ∧ m.get? (.ofName key) = some v := by
  change s.pairs.foldlM _ _ = _ at h
  change lastValue key s.pairs = some text at hs
  generalize s.pairs = pairs at h hs
  -- from the end, where the value that counts is
  induction pairs using List.reverseRecOn generalizing m with
  | nil => cases hs
  | append_singleton pairs p ih =>
    rw [List.foldlM_append] at h
    obtain ⟨before, hbefore, h⟩ := bind_eq_ok.1 h
    obtain ⟨after, hafter, h⟩ := bind_eq_ok.1 h
    obtain rfl : after = m := Except.ok.inj h
    rw [lastValue_append] at hs
    by_cases hp : p.1 = key
    · obtain rfl : p.2 = text := by simpa [lastValue, hp] using hs
      subst hp
      exact get?_putPair hafter
    · have hnone : lastValue key [p] = none := lastValue_eq_none.2 (by simpa using hp)
      rw [hnone, Option.none_or] at hs
      rw [get?_putPair_of_ne hafter hp]
      exact ih hbefore hs

/-- Rules get to see no key without a value. -/
theorem TagMap.get?_ofTags_eq_none {strict : TagKey → Bool} {s : Tags} {m : TagMap} {key : String}
    (h : TagMap.ofTags strict s = .ok m) (hs : s.get? key = none) :
    m.get? (.ofName key) = none := by
  change s.pairs.foldlM _ _ = _ at h
  change lastValue key s.pairs = none at hs
  have hne := lastValue_eq_none.1 hs
  clear hs
  generalize s.pairs = pairs at h hne
  induction pairs using List.reverseRecOn generalizing m with
  | nil =>
    obtain rfl : ∅ = m := Except.ok.inj h
    rfl
  | append_singleton pairs p ih =>
    rw [List.foldlM_append] at h
    obtain ⟨before, hbefore, h⟩ := bind_eq_ok.1 h
    obtain ⟨after, hafter, h⟩ := bind_eq_ok.1 h
    obtain rfl : after = m := Except.ok.inj h
    rw [get?_putPair_of_ne hafter (hne p (by simp))]
    exact ih hbefore fun q hq => hne q (by simp [hq])

/-- The last tag of the transaction under the key of the limit holds it. -/
def Transaction.SetsLimit (t : Transaction) (kind : LimitKind) (limit : Decimal) : Prop :=
  (t.tags.get? kind.tagKey.name).bind Decimal.parse? = some limit

instance (t : Transaction) (kind : LimitKind) (limit : Decimal) :
    Decidable (t.SetsLimit kind limit) := inferInstanceAs (Decidable (_ = _))

theorem LimitKind.ofName_tagKey (kind : LimitKind) :
    TagKey.ofName kind.tagKey.name = kind.tagKey := by cases kind <;> rfl

theorem LimitKind.isLimit_tagKey (kind : LimitKind) : kind.tagKey.isLimit = true := by
  cases kind <;> rfl

/-- Rules see the limit that a transaction sets. -/
theorem Transaction.SetsLimit.decimal? {t : Transaction} {kind : LimitKind} {limit : Decimal}
    (h : t.SetsLimit kind limit) {engine : RuleEngine} {tags : TagMap}
    (htags : engine.tagsFor t = .ok tags) : tags.decimal? kind.tagKey = some limit := by
  obtain ⟨text, htext, hparse⟩ := Option.bind_eq_some_iff.1 h
  obtain ⟨v, hv, hget⟩ := TagMap.get?_ofTags htags htext
  unfold readTagValue at hv
  rw [kind.ofName_tagKey] at hv hget
  simp only [kind.isLimit_tagKey, if_true, hparse] at hv
  obtain rfl := Except.ok.inj hv
  simp only [TagMap.decimal?, hget]

/-- Rules see no other limit. -/
theorem Transaction.setsLimit_of_decimal? {t : Transaction} {kind : LimitKind} {limit : Decimal}
    {engine : RuleEngine} {tags : TagMap} (htags : engine.tagsFor t = .ok tags)
    (h : tags.decimal? kind.tagKey = some limit) : t.SetsLimit kind limit := by
  rw [← kind.ofName_tagKey] at h
  unfold TagMap.decimal? at h
  cases htext : t.tags.get? kind.tagKey.name with
  | none =>
    rw [TagMap.get?_ofTags_eq_none htags htext] at h
    cases h
  | some text =>
    obtain ⟨v, hv, hget⟩ := TagMap.get?_ofTags htags htext
    rw [hget] at h
    unfold readTagValue at hv
    rw [kind.ofName_tagKey] at hv
    simp only [kind.isLimit_tagKey, if_true] at hv
    rw [SetsLimit, htext, Option.bind_some]
    cases hparse : Decimal.parse? text with
    | some amount =>
      rw [hparse] at hv
      obtain rfl := Except.ok.inj hv
      exact h
    | none =>
      rw [hparse] at hv
      dsimp only at hv
      split at hv
      · cases hv
      · obtain rfl := Except.ok.inj hv
        cases h

/-! ## The accounts to check -/

namespace LimitKind

variable {kind : LimitKind} {layers : List Layer} {entries : List Entry}

/-- Adds the account of an entry unless its identity and layer are there. -/
def addCheckpoint (kind : LimitKind) (seen : List Account) (e : Entry) : List Account :=
  if seen.any fun a => a.id = e.account.id ∧ kind.usageLayer a = kind.usageLayer e.account then seen
  else seen ++ [e.account]

theorem checkpoints_eq : kind.checkpoints layers entries =
    (entries.filter (kind.counts layers)).foldl kind.addCheckpoint [] := rfl

theorem mem_addCheckpoint {seen : List Account} {e : Entry} {a : Account} (h : a ∈ seen) :
    a ∈ kind.addCheckpoint seen e := by
  unfold addCheckpoint
  split
  · exact h
  · exact List.mem_append_left _ h

theorem exists_mem_addCheckpoint (kind : LimitKind) (seen : List Account) (e : Entry) :
    ∃ a ∈ kind.addCheckpoint seen e,
      a.id = e.account.id ∧ kind.usageLayer a = kind.usageLayer e.account := by
  unfold addCheckpoint
  split
  · rename_i h
    simpa using h
  · exact ⟨e.account, by simp, rfl, rfl⟩

theorem mem_foldl_addCheckpoint {seen : List Account} {a : Account} (h : a ∈ seen) :
    a ∈ entries.foldl kind.addCheckpoint seen := by
  induction entries generalizing seen with
  | nil => exact h
  | cons e rest ih => exact ih (mem_addCheckpoint h)

/-- For every entry that counts, an account with its identity and layer is checked. -/
theorem exists_checkpoint {e : Entry} (he : e ∈ entries) (hcounts : kind.counts layers e = true) :
    ∃ a ∈ kind.checkpoints layers entries,
      a.id = e.account.id ∧ kind.usageLayer a = kind.usageLayer e.account := by
  rw [checkpoints_eq]
  have he : e ∈ entries.filter (kind.counts layers) := List.mem_filter.2 ⟨he, hcounts⟩
  obtain ⟨before, after, hsplit⟩ := List.append_of_mem he
  rw [hsplit, List.foldl_append, List.foldl_cons]
  obtain ⟨a, ha, hsame⟩ :=
    exists_mem_addCheckpoint kind (before.foldl kind.addCheckpoint []) e
  exact ⟨a, mem_foldl_addCheckpoint ha, hsame⟩

/-- Only accounts of entries that count are checked. -/
theorem exists_of_mem_checkpoints {a : Account} (ha : a ∈ kind.checkpoints layers entries) :
    ∃ e ∈ entries, kind.counts layers e = true ∧ e.account = a := by
  have hfold : ∀ (l : List Entry) (seen : List Account), a ∈ l.foldl kind.addCheckpoint seen →
      a ∈ seen ∨ ∃ e ∈ l, e.account = a := by
    intro l
    induction l with
    | nil => exact fun seen h => .inl h
    | cons e rest ih =>
      intro seen h
      rcases ih _ h with h | ⟨x, hx, rfl⟩
      · unfold addCheckpoint at h
        split at h
        · exact .inl h
        · rcases List.mem_append.1 h with h | h
          · exact .inl h
          · exact .inr ⟨e, by simp, (List.mem_singleton.1 h).symm⟩
      · exact .inr ⟨x, by simp [hx], rfl⟩
  rw [checkpoints_eq] at ha
  rcases hfold _ _ ha with h | ⟨e, he, rfl⟩
  · cases h
  · exact ⟨e, (List.mem_filter.1 he).1, (List.mem_filter.1 he).2, rfl⟩

/-- Without entries on limit layers there is nothing to check. -/
theorem checkpoints_eq_nil (h : ∀ e ∈ entries, e.layer.isInBand kind.band = false) :
    kind.checkpoints layers entries = [] := by
  have hnone : entries.filter (kind.counts layers) = [] :=
    List.filter_eq_nil_iff.2 fun e he => by simp [counts, h e he]
  rw [checkpoints, hnone]
  rfl

/-! ## One check -/

/-- The usage of an account is known, and the transaction does not lift it above a limit. -/
def UsageWithin (kind : LimitKind) (lookup : BalanceLookup) (t : Transaction) (a : Account)
    (limit : Decimal) (p : LimitProjection) : Prop :=
  transactionImpact t a.id (kind.usageLayer a) = .ok p.impact ∧
    lookup ⟨t.journal, a, [kind.usageLayer a]⟩ = .ok (.ok p.current) ∧
    projectBalance p.current p.impact = .ok p ∧ p.projected ≤ limit

theorem parts_of_projectBalance {current impact : Decimal} {p : LimitProjection}
    (h : projectBalance current impact = .ok p) : p.current = current ∧ p.impact = impact ∧
      current.add impact = .ok p.projected := by
  obtain ⟨projected, hsum, rfl⟩ := map_eq_ok.1 h
  exact ⟨rfl, rfl, hsum⟩

theorem exceeds_eq_false {p : LimitProjection} {limit : Decimal} :
    p.exceeds limit = false ↔ p.projected ≤ limit := by
  rw [LimitProjection.exceeds, decide_eq_false_iff_not, Decimal.lt_iff_units, Int.not_lt]
  rfl

theorem checkUsage_eq_ok {ctx : RuleContext} {limit : Decimal} {a : Account} :
    kind.checkUsage ctx limit a = .ok () ↔
      ∃ p, kind.UsageWithin ctx.lookup ctx.transaction a limit p := by
  constructor
  · intro h
    obtain ⟨impact, himpact, h⟩ := bind_eq_ok.1 h
    obtain ⟨answer, hanswer, h⟩ := bind_eq_ok.1 h
    rw [orOverflow_eq_ok] at himpact hanswer
    cases answer with
    | error e => cases h
    | ok current =>
      obtain ⟨p, hp, hverdict⟩ := bind_eq_ok.1 h
      rw [orOverflow_eq_ok] at hp
      obtain ⟨rfl, rfl, -⟩ := parts_of_projectBalance hp
      by_cases hexceeds : p.exceeds limit = true
      · rw [if_pos hexceeds] at hverdict
        cases hverdict
      · exact ⟨p, himpact, hanswer, hp, exceeds_eq_false.1 (by simpa using hexceeds)⟩
  · rintro ⟨p, himpact, hanswer, hp, hle⟩
    refine bind_eq_ok.2 ⟨_, orOverflow_eq_ok.2 himpact,
      bind_eq_ok.2 ⟨_, orOverflow_eq_ok.2 hanswer, bind_eq_ok.2 ⟨p, orOverflow_eq_ok.2 hp, ?_⟩⟩⟩
    exact if_neg (by simp [exceeds_eq_false.2 hle])

end LimitKind

/-! ## The verdict -/

/-- A strict rule lets nothing pass that fails its check. -/
theorem Registration.verdict_eq_ok {r : Registration} (hstrict : r.rule.strict = true)
    {result : Except Failure Unit} (h : r.verdict result = .ok ()) : result = .ok () := by
  unfold verdict at h
  split at h
  · rfl
  · cases h
  · split at h
    · cases h
    · rw [if_pos hstrict] at h
      cases h
    · cases h

/-- The check of a strict rule for all accounts succeeds if the rule passes a transaction. -/
theorem check_of_run {rule : Rule} (hstrict : rule.strict = true) {layers : List Layer}
    {t : Transaction} {tags : TagMap} {lookup : BalanceLookup}
    (h : (Registration.forAll rule layers).run t tags lookup = .ok ()) :
    ∃ ctx : RuleContext, rule.check ctx = .ok () ∧ ctx.entries = t.entries ∧
      ctx.layers = layers ∧ ctx.transaction = t ∧ ctx.tags = tags ∧ ctx.lookup = lookup := by
  obtain ⟨ctx, hctx, hparts⟩ := context?_forAll rule layers t tags lookup
  rw [Registration.run, hctx] at h
  exact ⟨ctx, Registration.verdict_eq_ok hstrict h, hparts⟩

theorem RuleEngine.limitRule_mem_standard (currencies : CurrencyRegistry) (kind : LimitKind) :
    .forAll (limitRule kind) (currencies.layers [kind.band]) ∈ RuleEngine.standard currencies := by
  cases kind <;> simp [standard, LimitKind.band]

/-- A limit rule passes a transaction if it does not lift the usage of any account to check. -/
theorem run_limitRule_of_usageWithin {kind : LimitKind} {engine : RuleEngine} {t : Transaction}
    {tags : TagMap} (htags : engine.tagsFor t = .ok tags) {layers : List Layer}
    {lookup : BalanceLookup}
    (h : ∀ limit, t.SetsLimit kind limit → ∀ a ∈ kind.checkpoints layers t.entries,
      ∃ p, kind.UsageWithin lookup t a limit p) :
    (Registration.forAll (limitRule kind) layers).run t tags lookup = .ok () := by
  refine run_forAll fun ctx hentries hlayers ht htags' hlookup => ?_
  subst hlayers ht htags' hlookup
  simp only [limitRule]
  split
  · rfl
  · rename_i limit hlimit
    rw [hentries, forM_eq_ok_iff]
    exact fun a ha =>
      LimitKind.checkUsage_eq_ok.2 (h limit (Transaction.setsLimit_of_decimal? htags hlimit) a ha)

/-- **Every entry that counts is checked.** -/
theorem usageWithin_of_evaluate {currencies : CurrencyRegistry} {t : Transaction}
    {lookup : BalanceLookup} (h : (RuleEngine.standard currencies).evaluate t lookup = .ok ())
    {kind : LimitKind} {limit : Decimal} (hlimit : t.SetsLimit kind limit) {e : Entry}
    (he : e ∈ t.entries) (hcounts : kind.counts (currencies.layers [kind.band]) e = true) :
    ∃ e' ∈ t.entries, e'.account.id = e.account.id ∧
      kind.usageLayer e'.account = kind.usageLayer e.account ∧
      ∃ p, kind.UsageWithin lookup t e'.account limit p := by
  obtain ⟨tags, htags, h⟩ := bind_eq_ok.1 h
  have hrun := forM_eq_ok_iff.1 h _ (RuleEngine.limitRule_mem_standard currencies kind)
  obtain ⟨ctx, hcheck, hentries, hlayers, rfl, rfl, rfl⟩ := check_of_run rfl hrun
  simp only [limitRule, hlimit.decimal? (orError_eq_ok.1 htags), hentries, hlayers] at hcheck
  obtain ⟨a, ha, hid, hlayer⟩ := LimitKind.exists_checkpoint he hcounts
  obtain ⟨e', he', -, rfl⟩ := LimitKind.exists_of_mem_checkpoints ha
  exact ⟨e', he', hid, hlayer, LimitKind.checkUsage_eq_ok.1 (forM_eq_ok_iff.1 hcheck _ ha)⟩

/-- Nothing else is checked of a transaction in order. -/
theorem evaluate_of_usageWithin {currencies : CurrencyRegistry} {t : Transaction} {tags : TagMap}
    {totals : Totals} {lookup : BalanceLookup}
    (htags : (RuleEngine.standard currencies).tagsFor t = .ok tags) (hm : SidesMatch t.postings)
    (ht : t.entries.foldlM addEntry ∅ = .ok totals)
    (h : ∀ (kind : LimitKind) limit, t.SetsLimit kind limit →
      ∀ a ∈ kind.checkpoints (currencies.layers [kind.band]) t.entries,
        ∃ p, kind.UsageWithin lookup t a limit p) :
    (RuleEngine.standard currencies).evaluate t lookup = .ok () := by
  refine bind_eq_ok.2 ⟨tags, orError_eq_ok.2 htags, forM_eq_ok_iff.2 fun r hr => ?_⟩
  simp only [RuleEngine.standard, List.mem_cons, List.not_mem_nil, or_false] at hr
  rcases hr with rfl | rfl | rfl
  · exact run_doubleEntry hm ht _ tags lookup
  · exact run_limitRule_of_usageWithin htags (h .daily)
  · exact run_limitRule_of_usageWithin htags (h .cumulative)

/-- **The standard rules pass a transaction without a question** if its tags are in order, its
sides match with totals in range, and it has no entries on limit layers. -/
theorem evaluate_standard {currencies : CurrencyRegistry} {t : Transaction} {tags : TagMap}
    {totals : Totals} (htags : (RuleEngine.standard currencies).tagsFor t = .ok tags)
    (hm : SidesMatch t.postings) (ht : t.entries.foldlM addEntry ∅ = .ok totals)
    (hlimits : ∀ kind : LimitKind, ∀ e ∈ t.entries, e.layer.isInBand kind.band = false)
    (lookup : BalanceLookup) : (RuleEngine.standard currencies).evaluate t lookup = .ok () :=
  evaluate_of_usageWithin htags hm ht fun kind limit _ a ha => by
    rw [LimitKind.checkpoints_eq_nil (hlimits kind)] at ha
    cases ha

/-! ## The layers of the rules -/

theorem CurrencyRegistry.mem_layers {r : CurrencyRegistry} {code : CurrencyCode} {id : CurrencyId}
    (h : r.id? code = some id) {band : Band} {bands : List Band} (hband : band ∈ bands) :
    Layer.of band id ∈ r.layers bands := by
  obtain ⟨c, hc, rfl⟩ := Option.map_eq_some_iff.1 h
  exact List.mem_flatMap.2 ⟨c, (Keyed.get?_eq_some_iff.1 hc).1, List.mem_map_of_mem hband⟩

end LayeredLedger
