import LayeredLedger.Posting.Totals
import LayeredLedger.Service.Basic

/-!
# Creating transactions

A request becomes a transaction in these steps. Every pair gets its accounts and bridges, which
must carry the registered numbers of their currencies. Then all pairs are checked: amounts above
zero, accounts in the currency of the amount, principal amounts within the bounds. Then the legs
of all pairs are posted. The tags for group and type come last, so that no entry has them.

* `LedgerService.plan`, `checkPlan`, `LedgerService.postPlan`;
* `LedgerService.draft`: the transaction before the rules see it;
* `LedgerService.create`.
-/

namespace LayeredLedger

/-- The tags of metadata: a key and a value with a colon between. -/
def metadataTags (m : Metadata) : Tags :=
  .ofList (m.toList.map fun (key, value) => key ++ ":" ++ value)

/-- Checks that an account is in the currency of a request. -/
def checkCurrency (request : EntryRequest) (code : String) (a : Account) :
    Except LedgerError Unit :=
  if a.currency = request.amount.currency then .ok ()
  else .error (.currencyMismatch code request.amount.currency.text a.currency.text)

/-- Checks a request against its accounts and the bounds. -/
def checkPlan (bounds? : Option AmountBounds) (p : EntryPlan) : Except LedgerError Unit :=
  if p.amount ≤ 0 then .error (.invalidAmount p.request.debit p.amount)
  else do
    checkCurrency p.request p.request.debit p.debit
    checkCurrency p.request p.request.credit p.credit
    match bounds? with
    | none => .ok ()
    | some bounds =>
      if p.request.kind? = some .amount ∧ ¬p.request.skipsLimits ∧ ¬bounds.contains p.amount then
        .error (.amountOutOfBounds p.amount bounds.min bounds.max)
      else .ok ()

namespace LedgerService

/-- The account with a code, which must hold balances and have the registered number. -/
def registeredAccount (s : LedgerService) (chart : Chart) (code : String) :
    Except LedgerError Account := do
  let a ← chart.finalAccount code
  let _ ← s.registeredId a
  return a

/-- The bridge of a currency for a part, which must have the registered number if it is there. -/
def registeredBridge (s : LedgerService) (chart : Chart) (currency : CurrencyCode)
    (role : BridgeRole) : Except LedgerError (Option Account) :=
  match chart.bridge? currency role with
  | none => return none
  | some a => do
    let _ ← s.registeredId a
    return some a

/-- Finds the accounts of a request. -/
def plan (s : LedgerService) (chart : Chart) (request : EntryRequest) :
    Except LedgerError EntryPlan := do
  let debit ← s.registeredAccount chart request.debit
  let credit ← s.registeredAccount chart request.credit
  let currency ← s.currencies.idOf request.amount.currency
  let asset? ← s.registeredBridge chart request.amount.currency .asset
  let liability? ← s.registeredBridge chart request.amount.currency .liability
  return ⟨request, currency, debit, credit, asset?, liability?⟩

def journalOf (s : LedgerService) (request : TransactionRequest) : Except LedgerError JournalId :=
  match request.journal? <|> s.defaultJournal? with
  | some journal => .ok journal
  | none => .error (.missingJournal request.reference)

/-- Posts the legs of a request. -/
def postPlan (shape : TransactionShape) (t : Transaction) (p : EntryPlan) :
    Except LedgerError Transaction := do
  let strategy ← chooseForEntry p.request shape
  t.post (← strategy.legs p)

def build (s : LedgerService) (request : TransactionRequest) (chart : Chart) :
    Except LedgerError Transaction :=
  if request.entries.isEmpty then .error .noEntries
  else do
    let plans ← request.entries.mapM (s.plan chart)
    plans.forM (checkPlan request.bounds?)
    let journal ← s.journalOf request
    let t := Transaction.start journal request.reference (metadataTags request.metadata)
    let t ← plans.foldlM (postPlan request.shape) t
    return (t.tag ("group:" ++ request.shape.group.name)).tag ("type:" ++ request.shape.type)

/-- The transaction of a request before the rules see it. -/
def draft (s : LedgerService) (request : TransactionRequest) (chart : Chart) :
    Except Failure Transaction := do
  let t ← orError (s.build request chart)
  validate t.entries
  return t

def create (s : LedgerService) (request : TransactionRequest) (chart : Chart)
    (lookup : BalanceLookup) : Except Failure Transaction :=
  s.approve lookup (s.draft request chart)

end LedgerService

end LayeredLedger
