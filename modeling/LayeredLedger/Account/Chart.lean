import LayeredLedger.Account.Basic
import LayeredLedger.Error
import LayeredLedger.Keyed

/-!
# Charts

A chart holds accounts by code, and for each currency and part the bridge account that was added
last.

* `Chart`, `Chart.add`, `Chart.ofList`;
* `Chart.account?`, `Chart.finalAccount`, `Chart.bridge?`.
-/

namespace LayeredLedger

/-- Accounts by code, and bridges by currency and part. -/
structure Chart where
  accounts : Keyed Account.code
  /-- At most one bridge for each currency and part. -/
  bridges : List Account

namespace Chart

def empty : Chart := ⟨∅, []⟩

instance : EmptyCollection Chart := ⟨empty⟩

/-- The account is the bridge of a currency for a part. -/
def Bridges (a : Account) (currency : CurrencyCode) (role : BridgeRole) : Prop :=
  a.kind = .bridge role ∧ a.currency = currency

instance (a : Account) (currency : CurrencyCode) (role : BridgeRole) :
    Decidable (Bridges a currency role) := inferInstanceAs (Decidable (_ ∧ _))

/-- Adds an account. It takes the place of the account with the same code, and a bridge also
takes the place of the bridge of its currency and part. -/
def add (chart : Chart) (a : Account) : Chart where
  accounts := chart.accounts.insert a
  bridges :=
    match a.bridgeRole? with
    | some role => a :: chart.bridges.filter fun b => ¬Bridges b a.currency role
    | none => chart.bridges

def ofList (accounts : List Account) : Chart := accounts.foldl add ∅

def account? (chart : Chart) (code : String) : Option Account := chart.accounts.get? code

/-- The account with a code, which must hold balances. -/
def finalAccount (chart : Chart) (code : String) : Except LedgerError Account :=
  match chart.account? code with
  | some a => if a.holdsBalances then .ok a else .error (.accountNotFound code)
  | none => .error (.accountNotFound code)

/-- The bridge of a currency for a part. -/
def bridge? (chart : Chart) (currency : CurrencyCode) (role : BridgeRole) : Option Account :=
  chart.bridges.find? fun b => Bridges b currency role

end Chart

end LayeredLedger
