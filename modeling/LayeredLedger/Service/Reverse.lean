import LayeredLedger.Posting.Totals
import LayeredLedger.Service.Basic

/-!
# Reversing transactions

A transaction is reversed by one that takes all its entries back. A group of transactions is
reversed as a whole, the newest first, and only if none of them is reversed already. On success
the transactions are tagged as reversed; otherwise they stay as they are.

* `reversalDraft`, `reversalDrafts`, `groupReversalDrafts`: reversals before the rules see them;
* `Reversal`, `LedgerService.reverse`: the outcome, and the transaction after it;
* `newestFirst`, `GroupReversal`, `LedgerService.reverseGroup`: the same for a group.
-/

namespace LayeredLedger

/-- The reversal of a transaction before the rules see it. -/
def reversalDraft (t : Transaction) (reference : String) : Except Failure Transaction := do
  let reversal := t.reversal reference
  validate reversal.entries
  return reversal

/-- What became of a reversal. -/
inductive Reversal where
  /-- The transaction was reversed before, and nothing is posted. -/
  | alreadyReversed
  /-- The transaction that reverses it. -/
  | reversed (reversal : Transaction)

/-- What became of the reversal of a group. -/
inductive GroupReversal where
  /-- All transactions were reversed before, and nothing is posted. -/
  | alreadyReversed
  /-- The transactions that reverse them, that of the newest first. -/
  | reversed (reversals : List Transaction)

/-- Things with dates, the newest first. Those of one date keep their order. -/
def newestFirst {α : Type} (date : α → Int) (l : List α) : List α :=
  l.mergeSort fun a b => date b ≤ date a

/-- The reversals of transactions before the rules see them. The one at place `i` gets the
reference `references i`. -/
def groupDrafts (group : List Transaction) (references : Nat → String) :
    List (Except Failure Transaction) :=
  group.zipIdx.map fun (t, i) => reversalDraft t (references i)

/-- What the rules see of a reversal. A reversed transaction has nothing to show. -/
def reversalDrafts (t : Transaction) (reference : String) : List (Except Failure Transaction) :=
  if t.isReversed then [] else [reversalDraft t reference]

/-- What the rules see of the reversal of a group, if none of it is reversed. -/
def groupReversalDrafts (group : List Transaction) (references : Nat → String) :
    List (Except Failure Transaction) :=
  if group.any Transaction.isReversed then []
  else groupDrafts (newestFirst Transaction.postDate group) references

namespace LedgerService

/-- Reverses a transaction by one with a given reference. -/
def reverse (s : LedgerService) (t : Transaction) (reference : String) (lookup : BalanceLookup) :
    Except Failure Reversal × Transaction :=
  if t.isReversed then (.ok .alreadyReversed, t)
  else
    match s.approve lookup (reversalDraft t reference) with
    | .ok reversal => (.ok (.reversed reversal), t.tag Transaction.reversedMark)
    | .error f => (.error f, t)

def reverseGroup (s : LedgerService) (reference : String) (group : List Transaction)
    (references : Nat → String) (lookup : BalanceLookup) :
    Except Failure GroupReversal × List Transaction :=
  let reversed := group.countP Transaction.isReversed
  if group.isEmpty then (.error (.error (.groupNotFound reference)), group)
  else if reversed = group.length then (.ok .alreadyReversed, group)
  else if 0 < reversed then
    (.error (.error (.partiallyReversedGroup reference reversed group.length)), group)
  else
    let sorted := newestFirst Transaction.postDate group
    match (groupDrafts sorted references).mapM (s.approve lookup) with
    | .ok reversals => (.ok (.reversed reversals), sorted.map (·.tag Transaction.reversedMark))
    | .error f => (.error f, sorted)

end LedgerService

end LayeredLedger
