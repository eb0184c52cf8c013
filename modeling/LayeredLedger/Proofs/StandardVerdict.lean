import LayeredLedger.Proofs.Entries
import LayeredLedger.Proofs.LimitRules
import LayeredLedger.Proofs.SmallLedger

/-!
# What the standard rules say

The engine goes through tags, layers and accounts and stops at the first thing that is wrong. Here
is what it comes to, without the engine: the first limit tag that is no decimal, the first layer
whose sides differ, the first entry whose account would be above its limit. That an account is
checked once only makes no difference, since a second check would come to the same.

* `Transaction.unreadableLimit?`, `CurrencyRegistry.imbalance?`, `CurrencyRegistry.overrun?`: what
  can be wrong, in the order in which it is looked for;
* `CurrencyRegistry.fault?`: the first thing that is wrong;
* `Transaction.AddsUp`: no sum that is looked at is out of range;
* `forM_eq_verdictOf`, `findSome?_checkpoints`: lists of checks, and checking once;
* `tagsFor_cases`, `run_doubleEntry_eq`, `run_limitRule_eq`: the stages of the engine;
* **`evaluate_eq_fault`**: the engine reports the first thing that is wrong.
-/

namespace LayeredLedger

/-! ## What can be wrong -/

/-- What the rules say if something is wrong, and what they say if nothing is. -/
def verdictOf : Option LedgerError → Except Failure Unit
  | some e => .error (.error e)
  | none => .ok ()

/-- The sum of decimals, if it is in range. -/
def sumOf (amounts : List Decimal) : Decimal := (Decimal.sum amounts).toOption.getD 0

namespace Transaction

/-- The first pair of tags under a daily or a cumulative limit that is no decimal. -/
def unreadableLimit? (t : Transaction) : Option LedgerError :=
  (t.tags.pairs.find? fun p => (p.1 = "daily_limit" ∨ p.1 = "cumulative_limit") ∧
    Decimal.parse? p.2 = none).map fun p => .invalidLimitTag p.1 p.2

/-- The limit that the last tag under its key gives. -/
def limit? (t : Transaction) (kind : LimitKind) : Option Decimal :=
  (t.tags.get? kind.tagKey.name).bind Decimal.parse?

/-- The total on a side of a layer. -/
def total (t : Transaction) (side : Side) (layer : Layer) : Decimal :=
  sumOf (amountsOn side layer t.postings)

/-- What all entries on an account and a layer do to the balance there. -/
def impactOn (t : Transaction) (a : Account) (layer : Layer) : Decimal :=
  sumOf ((t.entries.filter fun e => e.account.id = a.id ∧ e.layer = layer).map Entry.impact)

/-- The entry is on a final account, on one of some layers. -/
def usesLimit (layers : List Layer) (e : Entry) : Bool :=
  e.layer ∈ layers ∧ e.account.kind = .final

end Transaction

/-- Answers to questions for balances. -/
abbrev Answers := BalanceQuery → Except LookupError Decimal

/-- Why a limit is not kept on the limit layer of an account. -/
def LimitKind.breach? (kind : LimitKind) (t : Transaction) (answers : Answers) (limit : Decimal)
    (a : Account) : Option LimitBreach :=
  let layer := kind.usageLayer a
  match answers ⟨t.journal, a, [layer]⟩ with
  | .error e => some (.lookupFailed e.message)
  | .ok current =>
    let impact := t.impactOn a layer
    let projected := sumOf [current, impact]
    if limit < projected then some (.projected current impact projected) else none

namespace CurrencyRegistry

/-- The first registered layer, by code and then by band, whose sides differ. -/
def imbalance? (r : CurrencyRegistry) (t : Transaction) : Option LedgerError :=
  (r.layers Band.all).findSome? fun layer =>
    let debits := t.total .debit layer
    let credits := t.total .credit layer
    if debits.SameValue credits then none else some (.unbalanced layer debits credits)

/-- The first entry with a limit on its account that is not kept. -/
def overrun? (r : CurrencyRegistry) (t : Transaction) (answers : Answers) (kind : LimitKind) :
    Option LedgerError :=
  (t.limit? kind).bind fun limit =>
    (t.entries.filter (Transaction.usesLimit (r.layers [kind.band]))).findSome? fun e =>
      (kind.breach? t answers limit e.account).map (.limitExceeded kind e.account.code limit)

/-- The first thing that is wrong with a transaction. -/
def fault? (r : CurrencyRegistry) (t : Transaction) (answers : Answers) : Option LedgerError :=
  t.unreadableLimit? <|> r.imbalance? t <|> r.overrun? t answers .daily <|>
    r.overrun? t answers .cumulative

end CurrencyRegistry

namespace CurrencyRegistry

variable {r : CurrencyRegistry} {t : Transaction} {answers : Answers} {e : LedgerError}

theorem of_imbalance? (h : r.imbalance? t = some e) :
    ∃ layer debits credits, e = .unbalanced layer debits credits := by
  obtain ⟨layer, -, h⟩ := List.exists_of_findSome?_eq_some h
  dsimp only at h
  split at h
  · cases h
  · exact ⟨_, _, _, (Option.some.inj h).symm⟩

theorem imbalance?_eq_none_iff : r.imbalance? t = none ↔
    ∀ layer ∈ r.layers Band.all, (t.total .debit layer).SameValue (t.total .credit layer) := by
  rw [imbalance?, List.findSome?_eq_none_iff]
  refine forall₂_congr fun layer _ => ?_
  dsimp only
  split
  · exact iff_of_true rfl ‹_›
  · exact iff_of_false (Option.some_ne_none _) ‹_›

theorem of_overrun? {kind : LimitKind} (h : r.overrun? t answers kind = some e) :
    ∃ code limit breach, e = .limitExceeded kind code limit breach := by
  obtain ⟨limit, -, h⟩ := Option.bind_eq_some_iff.1 h
  obtain ⟨x, -, h⟩ := List.exists_of_findSome?_eq_some h
  obtain ⟨breach, -, rfl⟩ := Option.map_eq_some_iff.1 h
  exact ⟨x.account.code, limit, breach, rfl⟩

/-- What is wrong is a tag, a layer or a limit. -/
theorem of_fault? (h : r.fault? t answers = some e) :
    (∃ key value, e = .invalidLimitTag key value) ∨
    (∃ layer debits credits, e = .unbalanced layer debits credits) ∨
    ∃ kind code limit breach, e = .limitExceeded kind code limit breach := by
  simp only [fault?, Option.orElse_eq_orElse, Option.orElse_eq_or, Option.or_eq_some_iff] at h
  rcases h with h | ⟨-, h | ⟨-, h | ⟨-, h⟩⟩⟩
  · obtain ⟨p, -, rfl⟩ := Option.map_eq_some_iff.1 h
    exact .inl ⟨p.1, p.2, rfl⟩
  · exact .inr (.inl (of_imbalance? h))
  · exact .inr (.inr ⟨_, of_overrun? h⟩)
  · exact .inr (.inr ⟨_, of_overrun? h⟩)

end CurrencyRegistry

/-! ## Sums in range -/

instance {P : Side → Prop} [DecidablePred P] : Decidable (∀ side, P side) :=
  decidable_of_iff (P .debit ∧ P .credit) ⟨fun h side => by cases side <;> simp [h],
    fun h => ⟨h .debit, h .credit⟩⟩

instance {P : LimitKind → Prop} [DecidablePred P] : Decidable (∀ kind, P kind) :=
  decidable_of_iff (P .daily ∧ P .cumulative) ⟨fun h kind => by cases kind <;> simp [h],
    fun h => ⟨h .daily, h .cumulative⟩⟩

/-- No sum that the standard rules look at is out of range. -/
structure Transaction.AddsUp (t : Transaction) (r : CurrencyRegistry) (answers : Answers) :
    Prop where
  sides : ∀ layer ∈ r.layers Band.all, ∀ side,
    ∃ sum, Decimal.sum (amountsOn side layer t.postings) = .ok sum
  impacts : ∀ kind : LimitKind, (t.limit? kind).isSome → ∀ e ∈ t.entries,
    Transaction.usesLimit (r.layers [kind.band]) e →
      ∃ impact, transactionImpact t e.account.id (kind.usageLayer e.account) = .ok impact
  usages : ∀ kind : LimitKind, (t.limit? kind).isSome → ∀ e ∈ t.entries,
    Transaction.usesLimit (r.layers [kind.band]) e →
      ∀ current, answers ⟨t.journal, e.account, [kind.usageLayer e.account]⟩ = .ok current →
      ∀ impact, transactionImpact t e.account.id (kind.usageLayer e.account) = .ok impact →
      ∃ projected, current.add impact = .ok projected

instance (t : Transaction) (r : CurrencyRegistry) (answers : Answers) :
    Decidable (t.AddsUp r answers) :=
  decidable_of_iff
    ((∀ layer ∈ r.layers Band.all, ∀ side,
        ∃ sum, Decimal.sum (amountsOn side layer t.postings) = .ok sum) ∧
      (∀ kind : LimitKind, (t.limit? kind).isSome → ∀ e ∈ t.entries,
        Transaction.usesLimit (r.layers [kind.band]) e →
        ∃ impact, transactionImpact t e.account.id (kind.usageLayer e.account) = .ok impact) ∧
      ∀ kind : LimitKind, (t.limit? kind).isSome → ∀ e ∈ t.entries,
        Transaction.usesLimit (r.layers [kind.band]) e →
        ∀ current, answers ⟨t.journal, e.account, [kind.usageLayer e.account]⟩ = .ok current →
        ∀ impact, transactionImpact t e.account.id (kind.usageLayer e.account) = .ok impact →
        ∃ projected, current.add impact = .ok projected)
    ⟨fun ⟨h₁, h₂, h₃⟩ => ⟨h₁, h₂, h₃⟩, fun h => ⟨h.sides, h.impacts, h.usages⟩⟩

theorem sumOf_eq {amounts : List Decimal} {sum : Decimal} (h : Decimal.sum amounts = .ok sum) :
    sumOf amounts = sum := by
  simp [sumOf, h, Except.toOption]

theorem Decimal.sum_pair (a b : Decimal) : Decimal.sum [a, b] = a.add b := by
  have hzero : (0 : Decimal).add a = .ok a := rfl
  rw [Decimal.sum, List.foldlM_cons, hzero]
  change [b].foldlM Decimal.add a = a.add b
  rw [List.foldlM_cons]
  cases a.add b <;> rfl

/-! ## Lists of checks -/

theorem verdictOf_eq_ok_iff {e? : Option LedgerError} : verdictOf e? = .ok () ↔ e? = none := by
  cases e? <;> simp [verdictOf]

theorem verdictOf_orElse (e? e'? : Option LedgerError) :
    verdictOf (e? <|> e'?) = verdictOf e? >>= fun _ => verdictOf e'? := by
  cases e? <;> rfl

/-- A list of checks reports the first that fails. -/
theorem forM_eq_verdictOf {α : Type} {f : α → Except Failure Unit} {g : α → Option LedgerError}
    {l : List α} (h : ∀ x ∈ l, f x = verdictOf (g x)) :
    l.forM f = verdictOf (l.findSome? g) := by
  induction l with
  | nil => rfl
  | cons x l ih =>
    obtain ⟨hx, hl⟩ := List.forall_mem_cons.1 h
    have ih := ih hl
    rw [List.forM_eq_forM] at ih ⊢
    rw [List.forM_cons, hx, List.findSome?_cons, ih]
    cases g x <;> rfl

namespace LimitKind

variable {kind : LimitKind} {β : Type}

/-- Checking an account once is enough. -/
theorem findSome?_foldl_addCheckpoint {g : Account → Option β} {entries : List Entry}
    {seen : List Account}
    (hsame : ∀ e ∈ entries, ∀ a, a ∈ seen ∨ (∃ e' ∈ entries, e'.account = a) →
      a.id = e.account.id → a = e.account) :
    (entries.foldl kind.addCheckpoint seen).findSome? g =
      (seen.findSome? g <|> entries.findSome? fun e => g e.account) := by
  induction entries generalizing seen with
  | nil => simp
  | cons e rest ih =>
    rw [List.foldl_cons, ih, List.findSome?_cons]
    · unfold addCheckpoint
      split
      · -- the account was checked before, so it is only checked again if it passed
        rename_i hseen
        simp only [List.any_eq_true, decide_eq_true_eq] at hseen
        obtain ⟨a, ha, hid, -⟩ := hseen
        obtain rfl := hsame e (by simp) a (.inl ha) hid
        cases hfirst : seen.findSome? g with
        | some b => rfl
        | none =>
          rw [List.findSome?_eq_none_iff.1 hfirst _ ha]
      · rw [List.findSome?_append, List.findSome?_singleton]
        cases seen.findSome? g <;> cases g e.account <;> rfl
    · intro x hx a ha hid
      refine hsame x (by simp [hx]) a ?_ hid
      rcases ha with ha | ⟨e', he', rfl⟩
      · unfold addCheckpoint at ha
        split at ha
        · exact .inl ha
        · rcases List.mem_append.1 ha with ha | ha
          · exact .inl ha
          · exact .inr ⟨e, by simp, (List.mem_singleton.1 ha).symm⟩
      · exact .inr ⟨e', by simp [he'], rfl⟩

theorem findSome?_checkpoints {g : Account → Option β} {layers : List Layer}
    {entries : List Entry}
    (hsame : ∀ e ∈ entries, ∀ e' ∈ entries, e.account.id = e'.account.id →
      e.account = e'.account) :
    (kind.checkpoints layers entries).findSome? g =
      (entries.filter (kind.counts layers)).findSome? fun e => g e.account := by
  rw [checkpoints_eq, findSome?_foldl_addCheckpoint]
  · rfl
  · rintro e he a (ha | ⟨e', he', rfl⟩) hid
    · cases ha
    · exact hsame e' (List.mem_filter.1 he').1 e (List.mem_filter.1 he).1 hid

end LimitKind

/-! ## The stages -/

section Tags

variable (r : CurrencyRegistry)

theorem reads_standard (key : TagKey) : (RuleEngine.standard r).reads key = true ↔
    key = .dailyLimit ∨ key = .cumulativeLimit := by
  simp [RuleEngine.reads, RuleEngine.standard, Registration.forAll, doubleEntry, limitRule,
    LimitKind.tagKey]

/-- The tags are read up to the first limit that is no decimal. -/
theorem tagsFor_cases (t : Transaction) :
    (∃ e, t.unreadableLimit? = some e ∧ (RuleEngine.standard r).tagsFor t = .error e) ∨
      t.unreadableLimit? = none ∧ ∃ tags, (RuleEngine.standard r).tagsFor t = .ok tags := by
  have hkey : ∀ name, (RuleEngine.standard r).reads (.ofName name) = true ↔
      name = "daily_limit" ∨ name = "cumulative_limit" := fun name => by
    rw [reads_standard]
    constructor
    · rintro (h | h) <;> rw [← TagKey.name_ofName name, h]
      · exact .inl rfl
      · exact .inr rfl
    · rintro (rfl | rfl)
      · exact .inl rfl
      · exact .inr rfl
  have hlimit : ∀ key : TagKey, (RuleEngine.standard r).reads key = true → key.isLimit = true :=
    fun key hreads => by
      rcases (reads_standard r key).1 hreads with rfl | rfl <;> rfl
  have hunreadable : TagMap.isUnreadable (RuleEngine.standard r).reads = fun p =>
      decide ((p.1 = "daily_limit" ∨ p.1 = "cumulative_limit") ∧ Decimal.parse? p.2 = none) := by
    funext p
    unfold TagMap.isUnreadable
    rw [decide_eq_decide, hkey]
    exact ⟨And.right, fun h => ⟨hlimit _ ((hkey _).2 h.1), h⟩⟩
  have hread := TagMap.ofTags_cases (RuleEngine.standard r).reads t.tags
  rw [hunreadable] at hread
  unfold Transaction.unreadableLimit?
  rcases hread with ⟨p, hp, hread⟩ | ⟨hnone, tags, hread⟩
  · exact .inl ⟨_, by rw [hp, Option.map_some], hread⟩
  · exact .inr ⟨by rw [hnone, Option.map_none], tags, hread⟩

end Tags

section Runs

variable {r : CurrencyRegistry} {t : Transaction} {tags : TagMap} {lookup : BalanceLookup}
  {layers : List Layer}

theorem Registration.verdict_of_strict {reg : Registration} (hstrict : reg.rule.strict = true)
    {e? : Option LedgerError} (hcategory : ∀ e, e? = some e → e.category ≠ .internal) :
    reg.verdict (verdictOf e?) = verdictOf e? := by
  cases e? with
  | none => rfl
  | some e =>
    have he := hcategory e rfl
    unfold verdictOf verdict
    dsimp only
    split
    · contradiction
    · rw [if_pos hstrict]
    · rfl

/-- A strict rule reports what its check finds. -/
theorem run_forAll_eq {rule : Rule} (hstrict : rule.strict = true) {e? : Option LedgerError}
    (hcategory : ∀ e, e? = some e → e.category ≠ .internal)
    (h : ∀ ctx : RuleContext, ctx.entries = t.entries → ctx.layers = layers →
      ctx.transaction = t → ctx.tags = tags → ctx.lookup = lookup →
      rule.check ctx = verdictOf e?) :
    (Registration.forAll rule layers).run t tags lookup = verdictOf e? := by
  rw [run_forAll_eq_verdict h]
  exact Registration.verdict_of_strict hstrict hcategory

/-- Double entry reports the first layer whose sides differ. -/
theorem run_doubleEntry_eq
    (hsides : ∀ layer ∈ r.layers Band.all, ∀ side,
      ∃ sum, Decimal.sum (amountsOn side layer t.postings) = .ok sum) :
    (Registration.forAll doubleEntry (r.layers Band.all)).run t tags lookup =
      verdictOf (r.imbalance? t) := by
  refine run_forAll_eq rfl (fun e he => ?_) fun ctx hentries hlayers _ _ _ => ?_
  · obtain ⟨layer, debits, credits, rfl⟩ := CurrencyRegistry.of_imbalance? he
    exact nofun
  · change ctx.layers.forM (checkLayer ctx.entries) = _
    rw [hentries, hlayers]
    refine forM_eq_verdictOf fun layer hlayer => ?_
    obtain ⟨debits, hdebits⟩ := hsides layer hlayer .debit
    obtain ⟨credits, hcredits⟩ := hsides layer hlayer .credit
    have hsums := foldlM_addToSide_eq_ok.2 ⟨hdebits, hcredits⟩
    rw [checkLayer, sideTotals_eq, hsums]
    simp only [Transaction.total, sumOf_eq hdebits, sumOf_eq hcredits]
    change (if debits.SameValue credits then Except.ok () else _) = _
    split <;> rfl

/-- The rules see the limit that the last tag gives. -/
theorem decimal?_eq_limit? {engine : RuleEngine} (htags : engine.tagsFor t = .ok tags)
    (kind : LimitKind) : tags.decimal? kind.tagKey = t.limit? kind :=
  Option.ext fun _ => ⟨Transaction.setsLimit_of_decimal? htags, fun h =>
    Transaction.SetsLimit.decimal? h htags⟩

/-- What counts as usage is what final accounts have on registered layers of the band. -/
theorem counts_eq_usesLimit (r : CurrencyRegistry) (kind : LimitKind) :
    kind.counts (r.layers [kind.band]) = Transaction.usesLimit (r.layers [kind.band]) := by
  funext e
  have hband : e.layer ∈ r.layers [kind.band] → e.layer.isInBand kind.band = true := by
    intro hmem
    obtain ⟨c, -, hlayer⟩ := List.mem_flatMap.1 hmem
    rw [List.map_singleton, List.mem_singleton] at hlayer
    rw [hlayer, Layer.isInBand_of]
    exact decide_eq_true rfl
  have hfinal : (e.account.holdsBalances && !e.account.isBridge) =
      decide (e.account.kind = .final) := by
    unfold Account.holdsBalances Account.isBridge Account.bridgeRole?
    cases e.account.kind <;> rfl
  by_cases hmem : e.layer ∈ r.layers [kind.band]
  · simp [LimitKind.counts, Transaction.usesLimit, hmem, hband hmem, hfinal]
  · simp [LimitKind.counts, Transaction.usesLimit, hmem]

theorem checkUsage_eq {kind : LimitKind} {answers : Answers} {ctx : RuleContext}
    (hlookup : ctx.lookup = fun q => .ok (answers q)) {limit : Decimal} {a : Account}
    {impact : Decimal}
    (himpact : transactionImpact ctx.transaction a.id (kind.usageLayer a) = .ok impact)
    (husage : ∀ current,
      answers ⟨ctx.transaction.journal, a, [kind.usageLayer a]⟩ = .ok current →
      ∃ projected, current.add impact = .ok projected) :
    kind.checkUsage ctx limit a = verdictOf
      ((kind.breach? ctx.transaction answers limit a).map (.limitExceeded kind a.code limit)) := by
  have hsum : ctx.transaction.impactOn a (kind.usageLayer a) = impact := sumOf_eq himpact
  unfold LimitKind.checkUsage LimitKind.breach?
  simp only [himpact, hlookup, hsum, LimitKind.usageQuestion]
  cases hanswer : answers ⟨ctx.transaction.journal, a, [kind.usageLayer a]⟩ with
  | error e => rfl
  | ok current =>
    obtain ⟨projected, hprojected⟩ := husage current hanswer
    have hproject : projectBalance current impact = .ok ⟨current, impact, projected⟩ :=
      map_eq_ok.2 ⟨projected, hprojected, rfl⟩
    have hsum' : sumOf [current, impact] = projected :=
      sumOf_eq ((Decimal.sum_pair current impact).trans hprojected)
    dsimp only
    rw [hsum']
    change (orOverflow (projectBalance current impact) >>= fun p =>
      if p.exceeds limit then _ else _) = _
    rw [hproject]
    by_cases hexceeds : limit < projected
    · rw [if_pos hexceeds]
      exact if_pos (decide_eq_true hexceeds)
    · rw [if_neg hexceeds]
      exact if_neg (by simpa [LimitProjection.exceeds] using hexceeds)

/-- A limit rule reports the first entry whose account would be above the limit. -/
theorem run_limitRule_eq {engine : RuleEngine} (htags : engine.tagsFor t = .ok tags)
    {answers : Answers} (hsums : t.AddsUp r answers)
    (hsame : ∀ e ∈ t.entries, ∀ e' ∈ t.entries, e.account.id = e'.account.id →
      e.account = e'.account) (kind : LimitKind) :
    (Registration.forAll (limitRule kind) (r.layers [kind.band])).run t tags
      (fun q => .ok (answers q)) = verdictOf (r.overrun? t answers kind) := by
  refine run_forAll_eq rfl (fun e he => ?_) fun ctx hentries hlayers ht htags' hlookup => ?_
  · obtain ⟨code, limit, breach, rfl⟩ := CurrencyRegistry.of_overrun? he
    exact nofun
  · subst ht htags'
    unfold CurrencyRegistry.overrun?
    simp only [limitRule, decimal?_eq_limit? htags]
    cases hlimit : ctx.transaction.limit? kind with
    | none => rfl
    | some limit =>
      have honce : (kind.checkpoints (r.layers [kind.band]) ctx.transaction.entries).findSome?
          (fun a => (kind.breach? ctx.transaction answers limit a).map
            (LedgerError.limitExceeded kind a.code limit)) = _ :=
        LimitKind.findSome?_checkpoints hsame
      change (kind.checkpoints ctx.layers ctx.entries).forM (kind.checkUsage ctx limit) = _
      rw [hentries, hlayers, Option.bind_some, ← counts_eq_usesLimit, ← honce]
      refine forM_eq_verdictOf fun a ha => ?_
      obtain ⟨e, he, hcounts, rfl⟩ := LimitKind.exists_of_mem_checkpoints ha
      rw [counts_eq_usesLimit] at hcounts
      have hset : (ctx.transaction.limit? kind).isSome := by simp [hlimit]
      obtain ⟨impact, himpact⟩ := hsums.impacts kind hset e he hcounts
      exact checkUsage_eq hlookup himpact fun current hcurrent =>
        hsums.usages kind hset e he hcounts current hcurrent impact himpact

end Runs

/-! ## The whole engine -/

section Engine

variable {r : CurrencyRegistry} {t : Transaction}

/-- The engine is its three rules, once the tags are read. -/
theorem evaluate_of_tagsFor {tags : TagMap}
    (htags : (RuleEngine.standard r).tagsFor t = .ok tags) (lookup : BalanceLookup) :
    (RuleEngine.standard r).evaluate t lookup = (do
      (Registration.forAll doubleEntry (r.layers Band.all)).run t tags lookup
      (Registration.forAll (limitRule .daily) (r.layers [.dailyLimit])).run t tags lookup
      (Registration.forAll (limitRule .cumulative) (r.layers [.cumulativeLimit])).run t tags
        lookup) := by
  unfold RuleEngine.evaluate
  rw [htags]
  change (RuleEngine.standard r).forM (fun reg => reg.run t tags lookup) = _
  unfold RuleEngine.standard
  rw [List.forM_eq_forM, List.forM_cons, List.forM_cons, List.forM_cons, List.forM_nil]
  refine bind_congr fun _ => bind_congr fun _ => ?_
  exact bind_pure _

theorem evaluate_of_unreadableLimit {e : LedgerError} (h : t.unreadableLimit? = some e)
    (lookup : BalanceLookup) : (RuleEngine.standard r).evaluate t lookup = .error (.error e) := by
  rcases tagsFor_cases r t with ⟨e', he', htags⟩ | ⟨hnone, -⟩
  · unfold RuleEngine.evaluate
    rw [htags, Option.some.inj (he'.symm.trans h)]
    rfl
  · rw [hnone] at h
    cases h

/-- A rule is called as it is registered. -/
theorem RuleEngine.of_mem_callsWith {tags : TagMap} {lookup : BalanceLookup}
    {places : List (Registration × Nat)} {call : RuleEngine.Call}
    (h : call ∈ RuleEngine.callsWith t tags lookup places) :
    ∃ place ∈ places, call.rule = place.1.rule ∧
      place.1.context? t tags lookup = some call.context := by
  induction places with
  | nil => cases h
  | cons place rest ih =>
    have hrest : call ∈ callsWith t tags lookup rest → ∃ p ∈ place :: rest,
        call.rule = p.1.rule ∧ p.1.context? t tags lookup = some call.context := fun h => by
      obtain ⟨p, hp, hcall⟩ := ih h
      exact ⟨p, List.mem_cons_of_mem _ hp, hcall⟩
    unfold callsWith at h
    split at h
    · exact hrest h
    · rename_i ctx hctx
      split at h
      · rcases List.mem_cons.1 h with rfl | h
        · exact ⟨place, by simp, rfl, hctx⟩
        · exact hrest h
      · obtain rfl := List.mem_singleton.1 h
        exact ⟨place, by simp, rfl, hctx⟩

/-- Without limits no balance is asked for. -/
theorem questions_eq_nil (hnone : ∀ kind, t.limit? kind = none) (lookup : BalanceLookup) :
    (RuleEngine.standard r).questions t lookup = [] := by
  unfold RuleEngine.questions RuleEngine.calls
  split
  · rename_i tags htags
    rw [List.flatMap_eq_nil_iff]
    intro call hcall
    obtain ⟨⟨reg, place⟩, hplace, hrule, hcontext⟩ := RuleEngine.of_mem_callsWith hcall
    have hreg : reg ∈ RuleEngine.standard r := List.fst_mem_of_mem_zipIdx hplace
    have hread : ∀ {rule : Rule} {layers : List Layer},
        (Registration.forAll rule layers).context? t tags lookup = some call.context →
        call.context.tags = tags := fun {rule layers} h => by
      obtain ⟨ctx, hctx, -, -, -, htags', -⟩ := context?_forAll rule layers t tags lookup
      obtain rfl := Option.some.inj (hctx.symm.trans h)
      exact htags'
    have hlimit : ∀ {kind : LimitKind} {layers : List Layer},
        (Registration.forAll (limitRule kind) layers).context? t tags lookup =
          some call.context → (limitRule kind).questions call.context = [] :=
      fun {kind layers} h => by
        simp only [limitRule, hread h, decimal?_eq_limit? htags, hnone]
    rw [hrule]
    simp only [RuleEngine.standard, List.mem_cons, List.not_mem_nil, or_false] at hreg
    rcases hreg with rfl | rfl | rfl
    · rfl
    · exact hlimit hcontext
    · exact hlimit hcontext
  · rfl

/-- Without limits only tags and layers matter. -/
theorem evaluate_without_limits (hsides : ∀ layer ∈ r.layers Band.all, ∀ side,
      ∃ sum, Decimal.sum (amountsOn side layer t.postings) = .ok sum)
    (hnone : ∀ kind, t.limit? kind = none) (lookup : BalanceLookup) :
    (RuleEngine.standard r).evaluate t lookup =
      verdictOf (t.unreadableLimit? <|> r.imbalance? t) := by
  rcases tagsFor_cases r t with ⟨e, hunreadable, -⟩ | ⟨hunreadable, tags, htags⟩
  · rw [hunreadable]
    exact evaluate_of_unreadableLimit hunreadable lookup
  · have hlimits : ∀ (kind : LimitKind) layers,
        (Registration.forAll (limitRule kind) layers).run t tags lookup = .ok () :=
      fun kind layers => run_limitRule_of_usageWithin htags fun limit hlimit => by
        rw [Transaction.SetsLimit, ← Transaction.limit?, hnone kind] at hlimit
        cases hlimit
    rw [evaluate_of_tagsFor htags, run_doubleEntry_eq hsides, hlimits, hlimits, hunreadable]
    exact bind_pure _

end Engine

/-! ## The main result -/

/-- **The standard rules report the first thing that is wrong.** Of a transaction in which an
identity is that of one account, and no sum of which is out of range, the verdict is the first of
these: a limit tag that is no decimal; a registered layer, by code and then by band, with different
totals on its sides; for the daily limit and then for the cumulative one, an entry of a final
account on a registered layer of the limit, whose usage cannot be read, or would be above the limit
with all entries that are there. Only a balance that cannot be read is a fault outside of the
ledger. Without a limit no balance is asked for, whatever the store has to say. -/
theorem evaluate_eq_fault {r : CurrencyRegistry} {t : Transaction} {answers : Answers}
    (hsame : ∀ e ∈ t.entries, ∀ e' ∈ t.entries, e.account.id = e'.account.id →
      e.account = e'.account) (hsums : t.AddsUp r answers) :
    (RuleEngine.standard r).evaluate t (fun q => .ok (answers q)) =
      verdictOf (r.fault? t answers) ∧
    (∀ e, r.fault? t answers = some e → (e.isInfrastructure = true ↔
      ∃ kind code limit reason, e = .limitExceeded kind code limit (.lookupFailed reason))) ∧
    ((∀ kind, t.limit? kind = none) → ∀ lookup,
      (RuleEngine.standard r).questions t lookup = [] ∧
      (RuleEngine.standard r).evaluate t lookup =
        verdictOf (t.unreadableLimit? <|> r.imbalance? t)) := by
  refine ⟨?_, ?_, fun hnone lookup =>
    ⟨questions_eq_nil hnone lookup, evaluate_without_limits hsums.sides hnone lookup⟩⟩
  · unfold CurrencyRegistry.fault?
    rcases tagsFor_cases r t with ⟨e, hunreadable, -⟩ | ⟨hunreadable, tags, htags⟩
    · rw [hunreadable]
      exact evaluate_of_unreadableLimit hunreadable _
    · rw [hunreadable]
      have hlimit := run_limitRule_eq htags hsums hsame
      rw [evaluate_of_tagsFor htags, run_doubleEntry_eq hsums.sides]
      change (verdictOf (r.imbalance? t) >>= fun _ => _) =
        verdictOf (r.imbalance? t <|> r.overrun? t answers .daily <|>
          r.overrun? t answers .cumulative)
      rw [verdictOf_orElse, verdictOf_orElse]
      refine bind_congr fun _ => ?_
      exact congrArg₂ (fun x y => x >>= fun _ => y) (hlimit .daily) (hlimit .cumulative)
  · intro e he
    rcases CurrencyRegistry.of_fault? he with ⟨key, value, rfl⟩ |
      ⟨layer, debits, credits, rfl⟩ | ⟨kind, code, limit, breach, rfl⟩
    · exact ⟨nofun, nofun⟩
    · exact ⟨nofun, nofun⟩
    · cases breach with
      | projected current impact projected => exact ⟨nofun, nofun⟩
      | lookupFailed reason => exact ⟨fun _ => ⟨kind, code, limit, reason, rfl⟩, fun _ => rfl⟩

open SmallLedger in
/-- The payer has used up the limit, so the rules refuse one more payment. -/
theorem evaluate_eq_fault_smallLedger :
    ∃ t sum, service.build (payment 40) chart = .ok t ∧ limit.add (dollars 40) = .ok sum ∧
      (RuleEngine.standard currencies).evaluate t (fun _ => .ok (.ok limit)) = .error (.error
        (.limitExceeded .daily "payer" limit (.projected limit (dollars 40) sum))) := by
  let answers : Answers := fun _ => .ok limit
  obtain ⟨t, ht, hrun⟩ := bind_eq_ok.1 (by decide +kernel : (do
    let t ← orError (service.build (payment 40) chart)
    let sum ← orOverflow (limit.add (dollars 40))
    return decide ((∀ e ∈ t.entries, ∀ e' ∈ t.entries, e.account.id = e'.account.id →
        e.account = e'.account) ∧ t.AddsUp currencies answers ∧
      currencies.fault? t answers =
        some (.limitExceeded .daily "payer" limit (.projected limit (dollars 40) sum)))) =
        (.ok true : Except Failure Bool))
  obtain ⟨sum, hsum, hrun⟩ := bind_eq_ok.1 hrun
  obtain ⟨hsame, hsums, hfault⟩ := of_decide_eq_true (Except.ok.inj hrun)
  refine ⟨t, sum, orError_eq_ok.1 ht, orOverflow_eq_ok.1 hsum, ?_⟩
  rw [(evaluate_eq_fault hsame hsums).1, hfault]
  rfl

end LayeredLedger
