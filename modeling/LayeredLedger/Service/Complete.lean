import LayeredLedger.Posting.Totals
import LayeredLedger.Service.Basic

/-!
# Completing transactions

A pending transaction is completed by another one that settles it. How it was made is read back
from its tags and its layers. On success it is tagged as completed; otherwise it stays as it is.

* `requiredTag`, `Transaction.shape`, `LedgerService.baseLayersOf`;
* `LedgerService.completionDraft`, `LedgerService.completionDrafts`: the completion before the
  rules see it;
* `Completion`, `LedgerService.complete`: the outcome, and the transaction after it.
-/

namespace LayeredLedger

/-- The value of a tag that a transaction must have. -/
def requiredTag (t : Transaction) (key : TagKey) : Except LedgerError String :=
  match t.tags.get? key.name with
  | some value => .ok value
  | none => .error (.missingTransactionTag key t.detail)

/-- The shape of a transaction, read back from its tags and layers. -/
def Transaction.shape (t : Transaction) : Except LedgerError TransactionShape := do
  let group ← requiredTag t .group
  let type ← requiredTag t .type
  return ⟨t.touches .pending, .ofName group, type⟩

/-- What became of a completion. -/
inductive Completion where
  /-- The transaction was completed before, and nothing is posted. -/
  | alreadyCompleted
  /-- The transaction that completes it. -/
  | completed (completion : Transaction)

namespace LedgerService

/-- The base layer of the currency of an account. -/
def baseLayerFor (s : LedgerService) (e : Entry) : Except LedgerError (CurrencyCode × Layer) :=
  (s.registeredId e.account).map fun id => (e.account.currency, Layer.of .base id)

/-- The base layers of the currencies of a transaction. -/
def baseLayersOf (s : LedgerService) (t : Transaction) : Except LedgerError BaseLayers :=
  t.entries.mapM s.baseLayerFor

def buildCompletion (s : LedgerService) (t : Transaction) (reference : String) :
    Except LedgerError Transaction := do
  let layers ← s.baseLayersOf t
  let shape ← t.shape
  let strategy ← chooseStrategy s.fallBack shape
  strategy.settle t layers
    (Transaction.start t.journal reference (t.tags.add ("completes:" ++ t.detail)))

/-- The completion of a transaction before the rules see it. -/
def completionDraft (s : LedgerService) (t : Transaction) (reference : String) :
    Except Failure Transaction := do
  let completion ← orError (s.buildCompletion t reference)
  validate completion.entries
  return completion

/-- What the rules see of a completion. A completed transaction has nothing to show. -/
def completionDrafts (s : LedgerService) (t : Transaction) (reference : String) :
    List (Except Failure Transaction) :=
  if t.isCompleted then [] else [s.completionDraft t reference]

/-- Completes a transaction by one with a given reference. -/
def complete (s : LedgerService) (t : Transaction) (reference : String) (lookup : BalanceLookup) :
    Except Failure Completion × Transaction :=
  if t.isCompleted then (.ok .alreadyCompleted, t)
  else
    match s.approve lookup (s.completionDraft t reference) with
    | .ok completion => (.ok (.completed completion), t.tag Transaction.completedMark)
    | .error f => (.error f, t)

end LedgerService

end LayeredLedger
