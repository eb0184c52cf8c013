import LayeredLedger.Account.Basic
import LayeredLedger.Error
import LayeredLedger.Strategy.Request

/-!
# Strategies

A strategy decides on which layers the entries of a transaction go. The first strategy that takes
the shape of a transaction is used.

* `TransactionShape`, `TransactionShape.describe`;
* `Strategy`, `Strategy.name`, `Strategy.takes`;
* `strategyFor?`, `chooseStrategy`, `chooseForEntry`: the choice;
* `EntryPlan`: a request with its accounts, ready for a strategy.
-/

namespace LayeredLedger

/-- What the choice of a strategy depends on. -/
structure TransactionShape where
  /-- Funds stay pending until completion. -/
  pending : Bool
  group : TransactionGroup
  /-- The type of the transaction, such as a deposit. -/
  type : String
deriving DecidableEq

/-- The shape in messages. -/
def TransactionShape.describe (s : TransactionShape) : String :=
  s!"pending={s.pending}, group={s.group.name}, type={s.type}"

/-- How the entries of a transaction are laid out. -/
inductive Strategy where
  /-- Settles at once. -/
  | direct
  /-- Holds money coming in until completion. -/
  | pendingInbound
  /-- Holds a bill payment until completion. -/
  | pendingBillPayment
deriving DecidableEq, Repr

namespace Strategy

/-- The strategies, in the order in which they are tried. -/
def all : List Strategy := [direct, pendingInbound, pendingBillPayment]

def name : Strategy → String
  | direct => "DirectTransactionStrategy"
  | pendingInbound => "PendingInboundTransactionStrategy"
  | pendingBillPayment => "PendingBillPaymentTransactionStrategy"

/-- The strategy takes transactions of this shape. -/
def takes (strategy : Strategy) (shape : TransactionShape) : Bool :=
  match strategy with
  | direct => !shape.pending
  | pendingInbound => shape.pending && shape.group = .inbound
  | pendingBillPayment => shape.pending && shape.group = .billPayment

end Strategy

def strategyFor? (shape : TransactionShape) : Option Strategy := Strategy.all.find? (·.takes shape)

/-- The strategy for a shape. With `fallBack`, a shape that no strategy takes is treated as money
coming in. -/
def chooseStrategy (fallBack : Bool) (shape : TransactionShape) : Except LedgerError Strategy :=
  match strategyFor? shape with
  | some strategy => .ok strategy
  | none => if fallBack then .ok .pendingInbound else .error (.noStrategy shape.describe)

/-- The strategy for one request. There is no way to fall back on. -/
def chooseForEntry (request : EntryRequest) (shape : TransactionShape) :
    Except LedgerError Strategy :=
  match strategyFor? shape with
  | some strategy => .ok strategy
  | none =>
    .error (.noStrategy s!"{shape.describe}, debit={request.debit}, credit={request.credit}")

/-- A request with its accounts. -/
structure EntryPlan where
  request : EntryRequest
  /-- The number of the currency of the request. -/
  currency : CurrencyId
  /-- The account to debit. -/
  debit : Account
  /-- The account to credit. -/
  credit : Account
  /-- The asset bridge of the currency. -/
  assetBridge? : Option Account
  /-- The liability bridge of the currency. -/
  liabilityBridge? : Option Account

namespace EntryPlan

def amount (p : EntryPlan) : Decimal := p.request.amount.amount

/-- The layer of the currency in a band. -/
def layer (p : EntryPlan) (band : Band) : Layer := .of band p.currency

/-- The bridge for a part, if there is one. -/
def bridge? (p : EntryPlan) : BridgeRole → Option Account
  | .asset => p.assetBridge?
  | .liability => p.liabilityBridge?

/-- The bridge for a part, which must be there. -/
def bridge (p : EntryPlan) (role : BridgeRole) : Except LedgerError Account :=
  match p.bridge? role with
  | some a => .ok a
  | none => .error (.missingBridgeAccount role p.debit.currency.text)

end EntryPlan

end LayeredLedger
