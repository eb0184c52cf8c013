import LayeredLedger.Rule.Basic

/-!
# Limit rules

The usage of an account is its balance on the limit layer of its currency. A transaction whose
tags hold a limit may not lift the usage of any account above it. Bridges and folders have no
usage. A balance that cannot be read counts as a breach.

* `LimitProjection`, `projectBalance`, `LimitProjection.exceeds`;
* `transactionImpact`: what a transaction does to a balance;
* `LimitKind.checkpoints`: the accounts and layers to check, each once, in posting order;
* `LimitKind.checkUsage`: the check of one of them;
* `limitRule`.
-/

namespace LayeredLedger

/-- A balance before and after a transaction. -/
structure LimitProjection where
  current : Decimal
  impact : Decimal
  projected : Decimal
deriving DecidableEq

/-- The balance that a transaction leads to. -/
def projectBalance (current impact : Decimal) : Except Overflow LimitProjection :=
  (current.add impact).map fun projected => ⟨current, impact, projected⟩

/-- The balance after the transaction is above a limit. -/
def LimitProjection.exceeds (p : LimitProjection) (limit : Decimal) : Bool := limit < p.projected

/-- What a transaction does to the balance of an account on a layer. -/
def transactionImpact (t : Transaction) (account : AccountId) (layer : Layer) :
    Except Overflow Decimal :=
  let posted := t.entries.filter fun e => e.account.id = account ∧ e.layer = layer
  Decimal.sum (posted.map Entry.impact)

namespace LimitKind

/-- The layer that holds the usage of an account. -/
def usageLayer (kind : LimitKind) (a : Account) : Layer := .of kind.band a.currencyId

/-- The entry counts as usage under a rule for some layers. -/
def counts (kind : LimitKind) (layers : List Layer) (e : Entry) : Bool :=
  e.layer.isInBand kind.band && e.layer ∈ layers && e.account.holdsBalances && !e.account.isBridge

/-- The accounts of entries that count as usage, each identity and layer once. -/
def checkpoints (kind : LimitKind) (layers : List Layer) (entries : List Entry) : List Account :=
  (entries.filter (kind.counts layers)).foldl
    (fun seen e =>
      if seen.any fun a => a.id = e.account.id ∧ kind.usageLayer a = kind.usageLayer e.account then
        seen
      else seen ++ [e.account])
    []

/-- The question for the usage of an account. -/
def usageQuestion (kind : LimitKind) (ctx : RuleContext) (a : Account) : BalanceQuery :=
  ⟨ctx.transaction.journal, a, [kind.usageLayer a]⟩

/-- Checks that the transaction does not lift the usage of an account above a limit. -/
def checkUsage (kind : LimitKind) (ctx : RuleContext) (limit : Decimal) (a : Account) :
    Except Failure Unit := do
  let impact ← orOverflow (transactionImpact ctx.transaction a.id (kind.usageLayer a))
  match ← orOverflow (ctx.lookup (kind.usageQuestion ctx a)) with
  | .error e => .error (.error (.limitExceeded kind a.code limit (.lookupFailed e.message)))
  | .ok current =>
    let p ← orOverflow (projectBalance current impact)
    if p.exceeds limit then
      .error (.error (.limitExceeded kind a.code limit (.projected p.current p.impact p.projected)))
    else .ok ()

/-- The questions of the checks of some accounts, up to the first check that fails. -/
def usageQuestions (kind : LimitKind) (ctx : RuleContext) (limit : Decimal) :
    List Account → List BalanceQuery
  | [] => []
  | a :: rest =>
    let asked :=
      match transactionImpact ctx.transaction a.id (kind.usageLayer a) with
      | .ok _ => [kind.usageQuestion ctx a]
      | .error _ => []
    match kind.checkUsage ctx limit a with
    | .ok () => asked ++ usageQuestions kind ctx limit rest
    | .error _ => asked

end LimitKind

/-- The rule that enforces a limit. Without the tag of the limit it passes everything. -/
def limitRule (kind : LimitKind) : Rule where
  name := kind.ruleName
  strict := true
  tagKeys := [kind.tagKey]
  check ctx :=
    match ctx.tags.decimal? kind.tagKey with
    | none => .ok ()
    | some limit => (kind.checkpoints ctx.layers ctx.entries).forM (kind.checkUsage ctx limit)
  questions ctx :=
    match ctx.tags.decimal? kind.tagKey with
    | none => []
    | some limit => kind.usageQuestions ctx limit (kind.checkpoints ctx.layers ctx.entries)

end LayeredLedger
