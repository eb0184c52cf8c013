import LayeredLedger.Balance.Store
import LayeredLedger.Tag.Typed

/-!
# Rules

A rule looks at a transaction in a context and passes it or gives a failure. It may ask for
balances, and it says beforehand which tags it reads.

* `RuleContext`: what a rule is given;
* `Rule`: its name, its strictness, its tags, its check and the balances that it asks for.
-/

namespace LayeredLedger

/-- What a rule is given. -/
structure RuleContext where
  lookup : BalanceLookup
  transaction : Transaction
  /-- The tags of the transaction, by key. -/
  tags : TagMap
  /-- The parameter with which the rule was registered. -/
  param? : Option String
  /-- The account to which the rule is restricted. -/
  account? : Option Account
  /-- Where the entries that the rule looks at stand in the transaction. -/
  offsets : List Nat
  /-- The layers on which the rule holds. -/
  layers : List Layer

/-- The entries that the rule looks at. -/
def RuleContext.entries (ctx : RuleContext) : List Entry :=
  ctx.offsets.filterMap fun i => ctx.transaction.entries[i]?

/-- A rule for transactions. -/
structure Rule where
  name : String
  /-- A transaction that the rule refuses is refused. Otherwise the refusal is ignored. -/
  strict : Bool
  /-- The keys of the tags that the rule reads. -/
  tagKeys : List TagKey
  check : RuleContext → Except Failure Unit
  /-- The questions for balances that the check asks, in order. -/
  questions : RuleContext → List BalanceQuery

end LayeredLedger
