import LayeredLedger.Posting.Totals
import LayeredLedger.Service.Basic

/-!
# Resetting daily limits

At the end of a day the usage of every account goes back to zero, against the asset bridge of its
currency. The rules have no say in it.

* `usageAccounts`, `resetSide`, `LedgerService.resetSpecs`;
* `LedgerService.dailyReset`: the transaction, if there is any usage;
* `LedgerService.resetQuestions`: the balances that are asked for.
-/

namespace LayeredLedger

/-- The accounts that can have usage, in order of their codes. -/
def usageAccounts (chart : Chart) : List Account :=
  chart.accounts.toList.filter fun a => a.holdsBalances && !a.isBridge

/-- The side of the entry that takes usage back to zero. -/
def resetSide (side : Side) (usage : Decimal) : Side :=
  if usage.isNegative then side else side.opposite

/-- The detail of the entries of a reset. -/
def resetDetail : String := "daily_limit_reset"

def resetTag : String := "type:DAILY_LIMIT_RESET"

namespace LedgerService

/-- The specs that take usage of an account back to zero. -/
def usageReset (chart : Chart) (a : Account) (layer : Layer) (usage : Decimal) :
    Except LedgerError (List EntrySpec) :=
  if usage.isZero then .ok []
  else
    match chart.bridge? a.currency .asset with
    | none => .error (.missingBridgeAccount .asset a.currency.text)
    | some bridge =>
      let side := resetSide a.side usage
      .ok [.untagged side a usage.abs layer resetDetail,
        .untagged side.opposite bridge usage.abs layer resetDetail]

def resetSpecs (s : LedgerService) (journal : JournalId) (chart : Chart) (lookup : BalanceLookup)
    (a : Account) : Except Failure (List EntrySpec) := do
  let id ← orError (s.registeredId a)
  let layer := Layer.of .dailyLimit id
  match ← orOverflow (lookup ⟨journal, a, [layer]⟩) with
  | .error e => .error (.error (.balanceUnavailable a.code e))
  | .ok usage => orError (usageReset chart a layer usage)

/-- Takes all daily usage back to zero by a transaction with a given reference. -/
def dailyReset (s : LedgerService) (journal : JournalId) (chart : Chart) (reference : String)
    (lookup : BalanceLookup) : Except Failure (Option Transaction) := do
  let specs ← (usageAccounts chart).mapM (s.resetSpecs journal chart lookup)
  if specs.flatten.isEmpty then return none
  let t ← orError ((Transaction.start journal reference (.ofList [resetTag])).post specs.flatten)
  validate t.entries
  return some t

/-- The questions for the usage of some accounts, up to the first that cannot be reset. -/
def resetQuestions (s : LedgerService) (journal : JournalId) (chart : Chart)
    (lookup : BalanceLookup) : List Account → List BalanceQuery
  | [] => []
  | a :: rest =>
    match s.registeredId a with
    | .error _ => []
    | .ok id =>
      let question : BalanceQuery := ⟨journal, a, [.of .dailyLimit id]⟩
      match s.resetSpecs journal chart lookup a with
      | .ok _ => question :: s.resetQuestions journal chart lookup rest
      | .error _ => [question]

end LedgerService

end LayeredLedger
