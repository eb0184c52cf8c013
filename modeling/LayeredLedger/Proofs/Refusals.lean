import LayeredLedger.Proofs.SmallLedger
import LayeredLedger.Proofs.StandardRules

/-!
# One rule decides

The rules of an engine are tried in order until one stops the transaction, and all of them are
given the same tags. Another rule can only ask for more tags to be in order. It does not change
the values that are read, so the other rules come to the same as without it.

* `Registration.LetsThrough`, `Registration.Stops`: what a rule does with a transaction;
* `Registration.run_eq_ok_iff`, `Registration.run_eq_error_iff`: these are the outcomes of a rule;
* `TagMap.ofTags_of_le`, `RuleEngine.tagsFor_of_le`: fewer keys to read, the same values;
* `RuleEngine.evaluate_eq_ok_iff`, `RuleEngine.evaluate_eq_error_iff`: the verdict of an engine;
* **`rules_only_restrict`**: what a rule among others can do.
-/

namespace LayeredLedger

/-! ## What a rule does -/

namespace Registration

variable {r : Registration} {t : Transaction} {tags : TagMap} {lookup : BalanceLookup}

/-- The rule lets a transaction through. -/
inductive LetsThrough (r : Registration) (t : Transaction) (tags : TagMap)
    (lookup : BalanceLookup) : Prop where
  /-- The transaction has no entry on the account of the rule. -/
  | skipped {id : AccountId} (hid : r.account? = some id)
      (hnone : ∀ e ∈ t.entries, e.account.id ≠ id)
  | passed {ctx : RuleContext} (hctx : r.context? t tags lookup = some ctx)
      (hcheck : r.rule.check ctx = .ok ())
  /-- The rule is not strict, so its refusal does not count. -/
  | ignored {ctx : RuleContext} {e : LedgerError} (hctx : r.context? t tags lookup = some ctx)
      (hcheck : r.rule.check ctx = .error (.error e)) (he : e.category = .rejection)
      (hlenient : r.rule.strict = false)

/-- The rule stops a transaction. -/
inductive Stops (r : Registration) (t : Transaction) (tags : TagMap) (lookup : BalanceLookup) :
    Failure → Prop where
  /-- The rule itself failed, strict or not. -/
  | crashed {ctx : RuleContext} {e : LedgerError} (hctx : r.context? t tags lookup = some ctx)
      (hcheck : r.rule.check ctx = .error (.error e)) (he : e.category = .internal) :
      Stops r t tags lookup (.error (.ruleFailed r.rule.name e))
  | refused {ctx : RuleContext} {e : LedgerError} (hctx : r.context? t tags lookup = some ctx)
      (hcheck : r.rule.check ctx = .error (.error e)) (he : e.category ≠ .internal)
      (hstrict : e.category = .rejection → r.rule.strict = true) :
      Stops r t tags lookup (.error e)
  | overflowed {ctx : RuleContext} {o : Overflow} (hctx : r.context? t tags lookup = some ctx)
      (hcheck : r.rule.check ctx = .error (.overflow o)) : Stops r t tags lookup (.overflow o)

theorem context?_eq_none : r.context? t tags lookup = none ↔
    ∃ id, r.account? = some id ∧ ∀ e ∈ t.entries, e.account.id ≠ id := by
  unfold context?
  cases hid : r.account? with
  | none => simp
  | some id => simp [looksAt, hid]

theorem LetsThrough.run_eq (h : r.LetsThrough t tags lookup) : r.run t tags lookup = .ok () := by
  unfold run
  cases h with
  | skipped hid hnone => rw [context?_eq_none.2 ⟨_, hid, hnone⟩]
  | passed hctx hcheck =>
    simp only [hctx, hcheck]
    rfl
  | ignored hctx hcheck he hlenient => simp only [hctx, hcheck, verdict, he, hlenient]; rfl

theorem Stops.run_eq {f : Failure} (h : r.Stops t tags lookup f) :
    r.run t tags lookup = .error f := by
  unfold run
  cases h with
  | crashed hctx hcheck he => simp only [hctx, hcheck, verdict, he]
  | @refused ctx e hctx hcheck he hstrict =>
    simp only [hctx, hcheck, verdict]
    split
    · contradiction
    · rename_i hrejection
      rw [if_pos (hstrict hrejection)]
    · rfl
  | overflowed hctx hcheck =>
    simp only [hctx, hcheck]
    rfl

/-- A rule lets a transaction through or stops it. -/
theorem letsThrough_or_stops (r : Registration) (t : Transaction) (tags : TagMap)
    (lookup : BalanceLookup) :
    r.LetsThrough t tags lookup ∨ ∃ f, r.Stops t tags lookup f := by
  cases hctx : r.context? t tags lookup with
  | none =>
    obtain ⟨id, hid, hnone⟩ := context?_eq_none.1 hctx
    exact .inl (.skipped hid hnone)
  | some ctx =>
    cases hcheck : r.rule.check ctx with
    | ok => exact .inl (.passed hctx hcheck)
    | error f =>
      cases f with
      | overflow o => exact .inr ⟨_, .overflowed hctx hcheck⟩
      | error e =>
        by_cases hinternal : e.category = .internal
        · exact .inr ⟨_, .crashed hctx hcheck hinternal⟩
        by_cases hignored : e.category = .rejection ∧ r.rule.strict = false
        · exact .inl (.ignored hctx hcheck hignored.1 hignored.2)
        · exact .inr ⟨_, .refused hctx hcheck hinternal fun he => by simpa [he] using hignored⟩

theorem run_eq_ok_iff : r.run t tags lookup = .ok () ↔ r.LetsThrough t tags lookup := by
  refine ⟨fun h => ?_, LetsThrough.run_eq⟩
  rcases letsThrough_or_stops r t tags lookup with hpass | ⟨f, hstop⟩
  · exact hpass
  · rw [hstop.run_eq] at h
    cases h

theorem run_eq_error_iff {f : Failure} :
    r.run t tags lookup = .error f ↔ r.Stops t tags lookup f := by
  refine ⟨fun h => ?_, Stops.run_eq⟩
  rcases letsThrough_or_stops r t tags lookup with hpass | ⟨f', hstop⟩
  · rw [hpass.run_eq] at h
    cases h
  · obtain rfl := Except.error.inj (hstop.run_eq.symm.trans h)
    exact hstop

end Registration

/-! ## The tags that rules are given -/

section Strictness

variable {strict strict' : TagKey → Bool} (h : ∀ key, strict key = true → strict' key = true)

include h

/-- A value that can be read is the same if less has to be in order. -/
theorem readTagValue_of_le {name value : String} {v : TagValue}
    (hread : readTagValue strict' name value = .ok v) : readTagValue strict name value = .ok v := by
  unfold readTagValue at hread ⊢
  dsimp only at hread ⊢
  split
  · rename_i hlimit
    rw [if_pos hlimit] at hread
    cases hparse : Decimal.parse? value with
    | some amount => simpa only [hparse] using hread
    | none =>
      -- somebody asks for the key in neither case, or the value would not have been read
      simp only [hparse] at hread ⊢
      split at hread
      · cases hread
      · rename_i hstrict
        rw [if_neg fun hs => hstrict (h _ hs)]
        exact hread
  · rename_i hlimit
    rwa [if_neg hlimit] at hread

theorem TagMap.ofTags_of_le {s : Tags} {m : TagMap} (hread : ofTags strict' s = .ok m) :
    ofTags strict s = .ok m := by
  unfold ofTags at hread ⊢
  generalize (∅ : TagMap) = start, s.pairs = pairs at hread ⊢
  induction pairs generalizing start with
  | nil => exact hread
  | cons p ps ih =>
    rw [List.foldlM_cons] at hread ⊢
    obtain ⟨next, hnext, hrest⟩ := bind_eq_ok.1 hread
    obtain ⟨v, hv, rfl⟩ := map_eq_ok.1 hnext
    exact bind_eq_ok.2 ⟨_, map_eq_ok.2 ⟨v, readTagValue_of_le h hv, rfl⟩, ih _ hrest⟩

end Strictness

namespace RuleEngine

variable {engine engine' : RuleEngine} {t : Transaction} {tags : TagMap} {lookup : BalanceLookup}

theorem reads_append (key : TagKey) :
    RuleEngine.reads (engine ++ engine') key = (engine.reads key || engine'.reads key) :=
  List.any_append

theorem reads_cons (r : Registration) (key : TagKey) :
    RuleEngine.reads (r :: engine) key = (decide (key ∈ r.rule.tagKeys) || engine.reads key) :=
  List.any_cons

/-- Rules that read fewer keys are given the same tags. -/
theorem tagsFor_of_le (h : ∀ key, engine.reads key = true → engine'.reads key = true)
    (htags : engine'.tagsFor t = .ok tags) : engine.tagsFor t = .ok tags :=
  TagMap.ofTags_of_le h htags

theorem tagsFor_congr (h : engine.reads = engine'.reads) :
    engine.tagsFor t = engine'.tagsFor t := by
  rw [tagsFor, tagsFor, h]

/-! ## The verdict -/

theorem evaluate_eq_ok_iff : engine.evaluate t lookup = .ok () ↔
    ∃ tags, engine.tagsFor t = .ok tags ∧ ∀ r ∈ engine, r.LetsThrough t tags lookup := by
  unfold evaluate
  rw [bind_eq_ok]
  simp only [orError_eq_ok, forM_eq_ok_iff, Registration.run_eq_ok_iff]

theorem evaluate_eq_error_iff {f : Failure} : engine.evaluate t lookup = .error f ↔
    (∃ e, engine.tagsFor t = .error e ∧ f = .error e) ∨
    ∃ tags before r after, engine.tagsFor t = .ok tags ∧ engine = before ++ r :: after ∧
      (∀ r' ∈ before, r'.LetsThrough t tags lookup) ∧ r.Stops t tags lookup f := by
  unfold evaluate
  rw [bind_eq_error, orError_eq_error]
  refine or_congr_right ?_
  simp only [orError_eq_ok, forM_eq_error_iff, Registration.run_eq_ok_iff,
    Registration.run_eq_error_iff]
  constructor
  · rintro ⟨tags, htags, before, r, after, hengine, hbefore, hstop⟩
    exact ⟨tags, before, r, after, htags, hengine, hbefore, hstop⟩
  · rintro ⟨tags, before, r, after, htags, hengine, hbefore, hstop⟩
    exact ⟨tags, htags, before, r, after, hengine, hbefore, hstop⟩

end RuleEngine

/-- **More rules only refuse more, and one rule decides.** Let the rules be any, with any names,
strictness, keys, accounts, parameters, layers and checks. A transaction that passes an engine
passes it without any one of its rules. A verdict against a transaction is an error of its tags, or
it is what one rule gives that stops the transaction, where all rules before it let the transaction
through. What comes after that rule can be exchanged for any rules that read the same keys. -/
theorem rules_only_restrict (t : Transaction) (lookup : BalanceLookup) :
    (∀ before after : RuleEngine, ∀ r : Registration,
      RuleEngine.evaluate (before ++ r :: after) t lookup = .ok () →
        RuleEngine.evaluate (before ++ after) t lookup = .ok ()) ∧
    (∀ (engine : RuleEngine) (f : Failure), engine.evaluate t lookup = .error f ↔
      (∃ e, engine.tagsFor t = .error e ∧ f = .error e) ∨
      ∃ tags before r after, engine.tagsFor t = .ok tags ∧ engine = before ++ r :: after ∧
        (∀ r' ∈ before, r'.LetsThrough t tags lookup) ∧ r.Stops t tags lookup f) ∧
    ∀ (before after after' : RuleEngine) (r : Registration) (tags : TagMap) (f : Failure),
      RuleEngine.tagsFor (before ++ r :: after) t = .ok tags →
      (∀ r' ∈ before, r'.LetsThrough t tags lookup) → r.Stops t tags lookup f →
      after'.reads = after.reads →
        RuleEngine.evaluate (before ++ r :: after') t lookup = .error f := by
  refine ⟨fun before after r h => ?_, fun engine f => RuleEngine.evaluate_eq_error_iff,
    fun before after after' r tags f htags hbefore hstop hreads => ?_⟩
  · obtain ⟨tags, htags, hpass⟩ := RuleEngine.evaluate_eq_ok_iff.1 h
    refine RuleEngine.evaluate_eq_ok_iff.2 ⟨tags,
      RuleEngine.tagsFor_of_le (fun key hkey => ?_) htags, fun r' hr' => hpass r' ?_⟩
    · rw [RuleEngine.reads_append, Bool.or_eq_true] at hkey ⊢
      rw [RuleEngine.reads_cons, Bool.or_eq_true]
      exact hkey.imp id .inr
    · rw [List.mem_append] at hr' ⊢
      exact hr'.imp id (List.mem_cons_of_mem r)
  · have hsame : RuleEngine.reads (before ++ r :: after') =
        RuleEngine.reads (before ++ r :: after) := by
      funext key
      rw [RuleEngine.reads_append, RuleEngine.reads_append, RuleEngine.reads_cons,
        RuleEngine.reads_cons, hreads]
    exact RuleEngine.evaluate_eq_error_iff.2 (.inr ⟨tags, before, r, after',
      (RuleEngine.tagsFor_congr hsame).trans htags, rfl, hbefore, hstop⟩)

/-- A rule that is not strict and has one answer to every transaction. -/
def SmallLedger.lenient (name : String) (e : LedgerError) : Rule where
  name := name
  strict := false
  tagKeys := []
  check _ := .error (.error e)
  questions _ := []

open SmallLedger in
/-- After the standard rules, a rule that is ignored, one for another account, and one that fails:
the last decides, and without it the payment passes. -/
theorem rules_only_restrict_smallLedger :
    let refusal : LedgerError := .limitExceeded .daily "payer" limit (.lookupFailed "down")
    let ignored : Registration := .forAll (lenient "Ignored" refusal) []
    let elsewhere : Registration :=
      { Registration.forAll (lenient "Elsewhere" (.internal "down")) [] with
        account? := some promo.id }
    let failing : Registration := .forAll (lenient "Failing" (.internal "down")) []
    let engine := RuleEngine.standard currencies ++ [ignored, elsewhere]
    ∃ t, service.create (payment 40) chart spent = .ok t ∧
      engine.evaluate t spent = .ok () ∧
      RuleEngine.evaluate (RuleEngine.standard currencies ++ [elsewhere]) t spent = .ok () ∧
      RuleEngine.evaluate (engine ++ [failing, .forAll doubleEntry []]) t spent =
        .error (.error (.ruleFailed "Failing" (.internal "down"))) := by
  intro refusal ignored elsewhere failing engine
  obtain ⟨t, ht, h⟩ := bind_eq_ok.1 (by decide +kernel : (do
    let t ← service.create (payment 40) chart spent
    engine.evaluate t spent
    return true) = (.ok true : Except Failure Bool))
  obtain ⟨_, hpass, -⟩ := bind_eq_ok.1 h
  obtain ⟨tags, htags, hthrough⟩ := RuleEngine.evaluate_eq_ok_iff.1 hpass
  have hreads : RuleEngine.reads (engine ++ [failing]) = engine.reads := by
    funext key
    simp [RuleEngine.reads, failing, Registration.forAll, lenient]
  obtain ⟨hwithout, -, hlater⟩ := rules_only_restrict t spent
  have hstop : failing.Stops t tags spent (.error (.ruleFailed "Failing" (.internal "down"))) :=
    .crashed rfl rfl rfl
  exact ⟨t, ht, hpass, hwithout _ _ ignored hpass, hlater engine [] _ failing tags _
    ((RuleEngine.tagsFor_congr hreads).trans htags) hthrough hstop rfl⟩

end LayeredLedger
