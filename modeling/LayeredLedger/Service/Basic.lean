import LayeredLedger.Account.Chart
import LayeredLedger.Rule.Engine
import LayeredLedger.Strategy.Settlement

/-!
# The service

The service builds transactions and has its rules look at them. It keeps nothing: whoever calls
it keeps the transactions, gives them their references, and answers questions for balances.

* `LedgerService`, `LedgerService.standard`, `TransactionRequest`;
* `LedgerService.registeredId`: the number of the currency of an account, which must be the
  registered one;
* `LedgerService.approve`: a draft that the rules pass;
* `Trail`, `LedgerService.trail`: what the rules do with some drafts.
-/

namespace LayeredLedger

/-- How transactions are made. -/
structure LedgerService where
  currencies : CurrencyRegistry
  /-- A pending transaction that no strategy takes is completed as money coming in. -/
  fallBack : Bool
  rules : RuleEngine
  /-- The journal of requests that name none. -/
  defaultJournal? : Option JournalId

/-- What a caller asks for. -/
structure TransactionRequest where
  /-- The reference of the transaction. -/
  reference : String
  journal? : Option JournalId
  shape : TransactionShape
  metadata : Metadata
  entries : List EntryRequest
  /-- Bounds on the principal amounts. -/
  bounds? : Option AmountBounds

namespace LedgerService

/-- A service with the standard rules and nothing to fall back on. -/
def standard (currencies : CurrencyRegistry) : LedgerService :=
  ⟨currencies, false, .standard currencies, none⟩

/-- The number of the currency of an account. The account must have the registered one. -/
def registeredId (s : LedgerService) (a : Account) : Except LedgerError CurrencyId :=
  match s.currencies.idOf a.currency with
  | .error e => .error e
  | .ok id =>
    if id = a.currencyId then .ok id else .error (.currencyIdMismatch a.code a.currencyId id)

/-- A draft that the rules pass. -/
def approve (s : LedgerService) (lookup : BalanceLookup) (draft : Except Failure Transaction) :
    Except Failure Transaction := do
  let t ← draft
  s.rules.evaluate t lookup
  return t

end LedgerService

/-- The calls of rules and the questions for balances of an operation, in order. -/
structure Trail where
  calls : List RuleEngine.Call
  questions : List BalanceQuery

/-- What the rules do with drafts, up to the first that does not pass. -/
def LedgerService.trail (s : LedgerService) (lookup : BalanceLookup) :
    List (Except Failure Transaction) → Trail
  | [] => ⟨[], []⟩
  | .error _ :: _ => ⟨[], []⟩
  | .ok t :: rest =>
    let calls := s.rules.calls t lookup
    let questions := s.rules.questions t lookup
    match s.rules.evaluate t lookup with
    | .error _ => ⟨calls, questions⟩
    | .ok () =>
      let later := s.trail lookup rest
      ⟨calls ++ later.calls, questions ++ later.questions⟩

end LayeredLedger
