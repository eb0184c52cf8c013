import LayeredLedger.Account.Kind
import LayeredLedger.Layer
import LayeredLedger.Money.Currency
import LayeredLedger.Tag.Basic
import LayeredLedger.Uuid

/-!
# Accounts

An account has an identity of its own. Its code names it in a chart, and a chart may come to hold
another account under the same code.

* `Account` and its tests `holdsBalances`, `isBridge`, `isExpense`;
* `Account.make`: a final account; `Account.withKind`: a bridge or a folder.
-/

namespace LayeredLedger

/-- An account. -/
structure Account where
  id : AccountId
  /-- The name in the chart. -/
  code : String
  description : String
  /-- The currency of the balances. -/
  currency : CurrencyCode
  /-- The number of the currency, from which the layers of the account are made. -/
  currencyId : CurrencyId
  /-- The side on which balances grow. -/
  side : Side
  kind : AccountKind
  tags : Tags
deriving DecidableEq

namespace Account

/-- A final account that is described by its code. -/
def make (id : AccountId) (code : String) (side : Side) (currency : CurrencyCode)
    (currencyId : CurrencyId) : Account where
  id
  code
  description := code
  currency
  currencyId
  side
  kind := .final
  tags := ∅

/-- The account as one of another kind. A bridge grows on the side of its part. -/
def withKind (a : Account) : AccountKind → Account
  | .bridge role => { a with kind := .bridge role, side := role.side }
  | kind => { a with kind }

/-- The part that the account plays as a bridge. -/
def bridgeRole? (a : Account) : Option BridgeRole :=
  match a.kind with
  | .bridge role => some role
  | _ => none

def isBridge (a : Account) : Bool := a.bridgeRole?.isSome

/-- The account is not a folder. -/
def holdsBalances (a : Account) : Bool := a.kind ≠ .composite

/-- The account is tagged as an expense. -/
def isExpense (a : Account) : Bool := a.tags.get? "type" = some "EXPENSE"

end Account

end LayeredLedger
