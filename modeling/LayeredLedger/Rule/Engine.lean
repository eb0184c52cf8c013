import LayeredLedger.Money.Registry
import LayeredLedger.Rule.DoubleEntry
import LayeredLedger.Rule.Limit

/-!
# The rule engine

An engine is a list of registered rules, tried in order. The first failure decides, with two
exceptions: a refusal by a rule that is not strict is ignored, and an internal error is reported
as the failure of its rule. A rule that is restricted to an account is passed over if the
transaction has no entry there.

* `Registration`, `Registration.context?`, `Registration.run`;
* `RuleEngine`, `RuleEngine.standard`;
* `RuleEngine.evaluate`: the verdict;
* `RuleEngine.Call`, `RuleEngine.calls`, `RuleEngine.questions`: which rules are called and which
  balances are asked for on the way to it.
-/

namespace LayeredLedger

/-- A rule with its scope. -/
structure Registration where
  rule : Rule
  /-- A parameter for the rule. -/
  param? : Option String
  /-- The only account that the rule looks at. -/
  account? : Option AccountId
  /-- The layers on which the rule holds. -/
  layers : List Layer

/-- Rules in the order in which they are tried. -/
abbrev RuleEngine := List Registration

namespace Registration

/-- A rule for all accounts, without a parameter. -/
def forAll (rule : Rule) (layers : List Layer) : Registration := ⟨rule, none, none, layers⟩

def looksAt (r : Registration) (e : Entry) : Bool :=
  match r.account? with
  | none => true
  | some id => e.account.id = id

/-- Where the entries stand that the rule looks at. -/
def offsets (r : Registration) (t : Transaction) : List Nat :=
  (t.entries.zipIdx.filter fun (e, _) => r.looksAt e).map Prod.snd

/-- What the rule is given, unless the transaction has no entry on its account. -/
def context? (r : Registration) (t : Transaction) (tags : TagMap) (lookup : BalanceLookup) :
    Option RuleContext :=
  let ctx (account? : Option Account) : RuleContext :=
    ⟨lookup, t, tags, r.param?, account?, r.offsets t, r.layers⟩
  match r.account? with
  | none => some (ctx none)
  | some _ => (t.entries.find? r.looksAt).map fun e => ctx (some e.account)

/-- What the result of a check means for the transaction. -/
def verdict (r : Registration) : Except Failure Unit → Except Failure Unit
  | .ok () => .ok ()
  | .error (.overflow o) => .error (.overflow o)
  | .error (.error e) =>
    match e.category with
    | .internal => .error (.error (.ruleFailed r.rule.name e))
    | .rejection => if r.rule.strict then .error (.error e) else .ok ()
    | _ => .error (.error e)

def run (r : Registration) (t : Transaction) (tags : TagMap) (lookup : BalanceLookup) :
    Except Failure Unit :=
  match r.context? t tags lookup with
  | none => .ok ()
  | some ctx => r.verdict (r.rule.check ctx)

end Registration

namespace RuleEngine

/-- Double entry on all layers, and the two limits on theirs. -/
def standard (currencies : CurrencyRegistry) : RuleEngine :=
  [.forAll doubleEntry (currencies.layers Band.all),
    .forAll (limitRule .daily) (currencies.layers [.dailyLimit]),
    .forAll (limitRule .cumulative) (currencies.layers [.cumulativeLimit])]

/-- Some rule reads the tags under a key. -/
def reads (engine : RuleEngine) (key : TagKey) : Bool :=
  engine.any fun r => key ∈ r.rule.tagKeys

/-- The tags of a transaction, for the rules of an engine. -/
def tagsFor (engine : RuleEngine) (t : Transaction) : Except LedgerError TagMap :=
  TagMap.ofTags engine.reads t.tags

def evaluate (engine : RuleEngine) (t : Transaction) (lookup : BalanceLookup) :
    Except Failure Unit := do
  let tags ← orError (engine.tagsFor t)
  engine.forM fun r => r.run t tags lookup

/-! ## The way to the verdict -/

/-- A call of a rule. -/
structure Call where
  /-- Where the rule stands in the engine. -/
  place : Nat
  rule : Rule
  context : RuleContext

/-- The calls of rules, up to the one that decides. -/
def callsWith (t : Transaction) (tags : TagMap) (lookup : BalanceLookup) :
    List (Registration × Nat) → List Call
  | [] => []
  | (r, place) :: rest =>
    match r.context? t tags lookup with
    | none => callsWith t tags lookup rest
    | some ctx =>
      match r.verdict (r.rule.check ctx) with
      | .ok () => ⟨place, r.rule, ctx⟩ :: callsWith t tags lookup rest
      | .error _ => [⟨place, r.rule, ctx⟩]

/-- The calls of rules in an evaluation, in order. -/
def calls (engine : RuleEngine) (t : Transaction) (lookup : BalanceLookup) : List Call :=
  match engine.tagsFor t with
  | .ok tags => callsWith t tags lookup engine.zipIdx
  | .error _ => []

/-- The questions for balances in an evaluation, in order. -/
def questions (engine : RuleEngine) (t : Transaction) (lookup : BalanceLookup) :
    List BalanceQuery :=
  (engine.calls t lookup).flatMap fun call => call.rule.questions call.context

end RuleEngine

end LayeredLedger
