import LayeredLedger.Account.Kind
import LayeredLedger.Limit.Kind
import LayeredLedger.Money.Currency

/-!
# Failures

Everything that can go wrong in the ledger, by cause. Each cause has a code, a message and a
category; the category says who can help: the operator, the caller, nobody but another request,
or the store behind the ledger.

* `LookupError`: a balance cannot be read;
* `LimitBreach`: why a limit refuses a transaction;
* `LedgerError` with `code`, `category`, `message`, `isInfrastructure`;
* `ErrorClass`, `LedgerError.errorClass`: the class of an error towards other systems;
* `Failure`: an error, or a sum out of range.
-/

namespace LayeredLedger

/-- Why a balance cannot be read. -/
inductive LookupError where
  /-- The store does not answer. -/
  | unavailable (reason : String)
  /-- The store answers with an error. -/
  | failed (reason : String)
deriving DecidableEq

def LookupError.message : LookupError → String
  | unavailable reason => "balance store unavailable: " ++ reason
  | failed reason => "balance query failed: " ++ reason

/-- Why a limit refuses a transaction. -/
inductive LimitBreach where
  /-- The balance would be above the limit. -/
  | projected (current impact projected : Decimal)
  /-- The balance cannot be read. -/
  | lookupFailed (reason : String)
deriving DecidableEq

def LimitBreach.message : LimitBreach → String
  | projected current impact sum =>
    s!"current balance {current}, transaction impact {impact}, projected balance {sum}"
  | lookupFailed reason => "balance lookup failed: " ++ reason

/-- Who can help with an error. -/
inductive ErrorCategory where
  /-- The ledger is set up wrongly. -/
  | configuration
  /-- The request or the transaction is malformed. -/
  | validation
  /-- A rule refuses the transaction. -/
  | rejection
  /-- The ledger cannot do its work. -/
  | internal
deriving DecidableEq, Repr

def ErrorCategory.name : ErrorCategory → String
  | configuration => "Configuration"
  | validation => "Validation"
  | rejection => "Rejection"
  | internal => "Internal"

/-- What went wrong. -/
inductive LedgerError where
  /-- No strategy takes the transaction. -/
  | noStrategy (context : String)
  /-- A limit tag does not hold a decimal. -/
  | invalidLimitTag (key value : String)
  /-- The number of a currency does not fit a band. -/
  | bandOverflow (currencyId : Nat)
  /-- A currency, or its number, is registered twice. -/
  | duplicateCurrency (what : String)
  /-- A currency is not registered. -/
  | unknownCurrency (code : String)
  /-- There is no bridge account for a part and a currency. -/
  | missingBridgeAccount (role : BridgeRole) (currency : String)
  /-- A request names no journal and there is no default. -/
  | missingJournal (reference : String)
  /-- An account has another number for its currency than the registry. -/
  | currencyIdMismatch (account : String) (configured registered : CurrencyId)
  /-- A transaction has no entries. -/
  | noEntries
  /-- An amount is zero or below. -/
  | invalidAmount (account : String) (amount : Decimal)
  /-- Debits and credits on a layer differ. -/
  | unbalanced (layer : Layer) (debits credits : Decimal)
  /-- No account with this code holds balances. -/
  | accountNotFound (code : String)
  /-- An amount and an account are in different currencies. -/
  | currencyMismatch (account expected actual : String)
  /-- An amount is outside of the bounds of the request. -/
  | amountOutOfBounds (amount min max : Decimal)
  /-- A commission is not debited from an expense account. -/
  | nonExpenseCommissionAccount (account : String)
  /-- A transaction lacks a tag. -/
  | missingTransactionTag (key : TagKey) (transaction : String)
  /-- No entry of the transaction is on the tagged account. -/
  | recipientNotFound (code : String)
  /-- The transaction is not pending. -/
  | notPending (transaction : String)
  /-- There is no transaction under the reference. -/
  | groupNotFound (reference : String)
  /-- Some transactions under the reference are reversed already. -/
  | partiallyReversedGroup (reference : String) (reversed total : Nat)
  /-- A limit refuses the transaction. -/
  | limitExceeded (kind : LimitKind) (account : String) (limit : Decimal) (breach : LimitBreach)
  /-- A rule could not do its work. -/
  | ruleFailed (rule : String) (cause : LedgerError)
  /-- A balance that the operation needs cannot be read. -/
  | balanceUnavailable (account : String) (cause : LookupError)
  /-- Any other failure. -/
  | internal (message : String)
deriving DecidableEq

namespace LedgerError

def code : LedgerError → String
  | noStrategy _ => "NO_STRATEGY"
  | invalidLimitTag _ _ => "INVALID_LIMIT_TAG"
  | bandOverflow _ => "LAYER_BAND_OVERFLOW"
  | duplicateCurrency _ => "DUPLICATE_CURRENCY"
  | unknownCurrency _ => "UNKNOWN_CURRENCY"
  | missingBridgeAccount _ _ => "MISSING_BRIDGE_ACCOUNT"
  | missingJournal _ => "MISSING_JOURNAL"
  | currencyIdMismatch _ _ _ => "CURRENCY_ID_MISMATCH"
  | noEntries => "NO_ENTRIES"
  | invalidAmount _ _ => "INVALID_AMOUNT"
  | unbalanced _ _ _ => "UNBALANCED_TRANSACTION"
  | accountNotFound _ => "ACCOUNT_NOT_FOUND"
  | currencyMismatch _ _ _ => "CURRENCY_MISMATCH"
  | amountOutOfBounds _ _ _ => "TRANSACTION_AMOUNT_OUT_OF_BOUNDS"
  | nonExpenseCommissionAccount _ => "NON_EXPENSE_COMMISSION_ACCOUNT"
  | missingTransactionTag _ _ => "MISSING_TRANSACTION_TAG"
  | recipientNotFound _ => "RECIPIENT_NOT_FOUND"
  | notPending _ => "NOT_PENDING"
  | groupNotFound _ => "GROUP_NOT_FOUND"
  | partiallyReversedGroup _ _ _ => "PARTIALLY_REVERSED_GROUP"
  | limitExceeded _ _ _ _ => "TRANSACTION_LIMIT_EXCEEDED"
  | ruleFailed _ _ => "RULE_FAILED"
  | balanceUnavailable _ _ => "BALANCE_UNAVAILABLE"
  | internal _ => "INTERNAL_ERROR"

def category : LedgerError → ErrorCategory
  | noStrategy _ | invalidLimitTag _ _ | bandOverflow _ | duplicateCurrency _
  | unknownCurrency _ | missingBridgeAccount _ _ | missingJournal _
  | currencyIdMismatch _ _ _ => .configuration
  | noEntries | invalidAmount _ _ | unbalanced _ _ _ | accountNotFound _
  | currencyMismatch _ _ _ | amountOutOfBounds _ _ _ | nonExpenseCommissionAccount _
  | missingTransactionTag _ _ | recipientNotFound _ | notPending _ | groupNotFound _
  | partiallyReversedGroup _ _ _ => .validation
  | limitExceeded _ _ _ _ | ruleFailed _ _ => .rejection
  | balanceUnavailable _ _ | internal _ => .internal

/-- The text of an error. -/
def message : LedgerError → String
  | noStrategy context => s!"No entry strategy found for {context}"
  | invalidLimitTag key value => s!"Invalid {key} value: " ++ Text.quoted value
  | bandOverflow currencyId => s!"Currency id {currencyId} overflows the layer band width"
  | duplicateCurrency what => s!"Duplicate currency: {what}"
  | unknownCurrency code => s!"Unknown currency: {code}"
  | missingBridgeAccount role currency =>
    s!"Bridge {role.name} account not found for currency {currency}"
  | missingJournal reference => s!"No journal given for transaction {reference}"
  | currencyIdMismatch account configured registered =>
    s!"Account {account} uses currency id {configured}, but the registry assigns {registered}"
  | noEntries => "Transaction must have at least one entry"
  | invalidAmount account amount =>
    s!"Entry amount for account {account} must be positive, got {amount}"
  | unbalanced layer debits credits =>
    s!"Layer {layer} is unbalanced: debits ({debits}) != credits ({credits})"
  | accountNotFound code => s!"Account not found: {code}"
  | currencyMismatch account expected actual =>
    s!"Currency mismatch for account {account}: expected {expected}, got {actual}"
  | amountOutOfBounds amount min max =>
    s!"Transaction amount {amount} outside allowed range [{min}, {max}]"
  | nonExpenseCommissionAccount account =>
    s!"Commission must be debited from an expense account, got {account}"
  | missingTransactionTag key transaction =>
    s!"Transaction {transaction} has no {key.name} tag"
  | recipientNotFound code => s!"Recipient account {code} not found in transaction"
  | notPending transaction => s!"Transaction {transaction} is not pending"
  | groupNotFound reference => s!"Transaction group {reference} not found"
  | partiallyReversedGroup reference reversed total =>
    s!"Transaction group {reference} is partially reversed ({reversed} of {total})"
  | limitExceeded kind account limit breach =>
    s!"{kind.label} limit of {limit} exceeded for account {account}: {breach.message}"
  | ruleFailed rule cause => s!"Rule {rule} failed: " ++ cause.message
  | balanceUnavailable account cause =>
    s!"Balance of account {account} unavailable: {cause.message}"
  | internal message => s!"Internal error: {message}"

/-- The failure came from outside of the ledger and not from the transaction. -/
def isInfrastructure : LedgerError → Bool
  | limitExceeded _ _ _ (.lookupFailed _) | ruleFailed _ _ | balanceUnavailable _ _ => true
  | _ => false

end LedgerError

/-- The class of an error towards other systems. -/
inductive ErrorClass where
  | configuration
  | notFound
  | validation
  | businessRule
  | internal
deriving DecidableEq, Repr

namespace ErrorClass

/-- The classes. -/
def all : List ErrorClass := [configuration, notFound, validation, businessRule, internal]

def name : ErrorClass → String
  | configuration => "Configuration"
  | notFound => "NotFound"
  | validation => "Validation"
  | businessRule => "BusinessRule"
  | internal => "Internal"

def ofName? (name : String) : Option ErrorClass := all.find? (·.name = name)

def code : ErrorClass → String
  | configuration => "CONFIGURATION_ERROR"
  | notFound => "NOT_FOUND"
  | validation => "VALIDATION_ERROR"
  | businessRule => "BUSINESS_RULE_VIOLATION"
  | internal => "INTERNAL_ERROR"

/-- The caller can do better with another request. -/
def isClient : ErrorClass → Bool
  | notFound | validation | businessRule => true
  | configuration | internal => false

/-- The words before a message of this class. -/
def heading : ErrorClass → String
  | configuration => "Configuration error: "
  | notFound => "Not found: "
  | validation => "Validation error: "
  | businessRule => "Business rule violation: "
  | internal => "Internal error: "

end ErrorClass

def LedgerError.errorClass : LedgerError → ErrorClass
  | accountNotFound _ | recipientNotFound _ | groupNotFound _ => .notFound
  | e =>
    match e.category with
    | .configuration => .configuration
    | .validation => .validation
    | .rejection => .businessRule
    | .internal => .internal

/-- Why an operation has no result: an error, or a sum out of range. -/
inductive Failure where
  | error (e : LedgerError)
  | overflow (o : Overflow)
deriving DecidableEq

/-- A result with an error, among results that can also overflow. -/
def orError {α : Type} : Except LedgerError α → Except Failure α := Except.mapError .error

/-- A sum that can overflow, among results that can also be errors. -/
def orOverflow {α : Type} : Except Overflow α → Except Failure α := Except.mapError .overflow

end LayeredLedger
