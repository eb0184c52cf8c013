import LayeredLedger.Money.Registry
import LayeredLedger.Posting.Transaction
import LayeredLedger.Strategy.Legs

/-!
# Settlement

Completing a pending transaction takes back everything outside of the base layer and moves the
tagged amounts on the base layer to where they belong.

* `unwindSpecs`: the way back on all other layers;
* `findAccount?`, `findLiabilityBridge?`, `baseLayerOf`: what the entries of the transaction say;
* `inboundSettlement`, `billSettlement`: the settling movements;
* `Strategy.settlement`: the whole settlement; `Strategy.settle`: posting it.
-/

namespace LayeredLedger

/-- The layers that are taken back, in the currencies of some base layers. -/
def unwoundLayers (layers : BaseLayers) : List Layer :=
  layers.flatMap fun c => Band.unwound.map c.2.withBand

/-- The specs that take back everything outside of the base layer. -/
def unwindSpecs (t : Transaction) (layers : BaseLayers) : List EntrySpec :=
  t.reversalSpecs fun layer => layer ∈ unwoundLayers layers

/-- The account with a code, on the first entry that has one. -/
def findAccount? (t : Transaction) (code : String) : Option Account :=
  (t.entries.find? (·.account.code = code)).map Entry.account

/-- The liability bridge of a currency, on the first entry that has one. -/
def findLiabilityBridge? (t : Transaction) (currency : CurrencyCode) : Option Account :=
  (t.entries.find? fun e =>
    e.account.kind = .bridge .liability ∧ e.account.currency = currency).map Entry.account

/-- The account with a code, which must be on some entry. -/
def recipient (t : Transaction) (code : String) : Except LedgerError Account :=
  match findAccount? t code with
  | some a => .ok a
  | none => .error (.recipientNotFound code)

/-- The liability bridge of a currency, which must be on some entry. -/
def settlingBridge (t : Transaction) (currency : CurrencyCode) : Except LedgerError Account :=
  match findLiabilityBridge? t currency with
  | some a => .ok a
  | none => .error (.missingBridgeAccount .liability currency.text)

/-- The base layer of the currency of an entry. -/
def baseLayerOf (e : Entry) (layers : BaseLayers) : Except LedgerError Layer :=
  match layers.get? e.account.currency with
  | some layer => .ok layer
  | none => .error (.unknownCurrency e.account.currency.text)

/-! ## Money coming in -/

/-- Pays out a leg that is tagged with the account to credit. -/
def payOut (t : Transaction) (layers : BaseLayers) (e : Entry) :
    Except LedgerError (List EntrySpec) :=
  match e.tags.get? "credit" with
  | none => return []
  | some code => do
    let a ← recipient t code
    let layer ← baseLayerOf e layers
    return [.credit a e.amount layer ("Completion credit for " ++ e.detail),
      .debit e.account e.amount layer "Bridge debit for completion"]

/-- Collects a leg that is tagged with the account to debit. -/
def collect (t : Transaction) (layers : BaseLayers) (e : Entry) :
    Except LedgerError (List EntrySpec) :=
  match e.tags.get? "debit" with
  | none => return []
  | some code => do
    let a ← recipient t code
    let bridge ← settlingBridge t e.account.currency
    let layer ← baseLayerOf e layers
    return [.debit a e.amount layer ("Completion debit for " ++ e.detail),
      .credit bridge e.amount layer "Bridge credit for completion"]

/-- The movements that settle money coming in: first all that is paid out, then all that is
collected. -/
def inboundSettlement (t : Transaction) (layers : BaseLayers) :
    Except LedgerError (List EntrySpec) := do
  let paid ← t.entries.mapM (payOut t layers)
  let collected ← t.entries.mapM (collect t layers)
  return (paid ++ collected).flatten

/-! ## Bill payments -/

/-- Settles a leg with an account, as the kind of the leg asks for. -/
def billMovement (e : Entry) (kind : EntryKind) (a : Account) (layer : Layer) : List EntrySpec :=
  let settled := "Bill payment completion: " ++ e.detail
  let bridged := "Bridge debit for bill payment"
  match kind with
  | .rebate | .commission =>
    [.debit a e.amount layer settled, .credit e.account e.amount layer bridged]
  | .amount => [.debit e.account e.amount layer bridged, .credit a e.amount layer settled]
  | .fee | .other _ => []

/-- Settles a tagged leg of a bill payment. A leg whose other account is on no entry is left as
it is. -/
def settleLeg (t : Transaction) (layers : BaseLayers) (e : Entry) :
    Except LedgerError (List EntrySpec) :=
  match e.tags.get? "credit" <|> e.tags.get? "debit" with
  | none => return []
  | some code =>
    match e.tags.get? "type" with
    | none => .error (.missingTransactionTag .type t.detail)
    | some kind =>
      match findAccount? t code with
      | none => return []
      | some a => do
        let layer ← baseLayerOf e layers
        return billMovement e (.ofName kind) a layer

/-- The movements that settle a bill payment. -/
def billSettlement (t : Transaction) (layers : BaseLayers) :
    Except LedgerError (List EntrySpec) := do
  let settled ← t.entries.mapM (settleLeg t layers)
  return settled.flatten

/-! ## All strategies -/

/-- The specs that settle a transaction. A direct transaction has nothing to settle. -/
def Strategy.settlement (strategy : Strategy) (t : Transaction) (layers : BaseLayers) :
    Except LedgerError (List EntrySpec) :=
  match strategy with
  | .direct => .error (.notPending t.detail)
  | .pendingInbound => return unwindSpecs t layers ++ (← inboundSettlement t layers)
  | .pendingBillPayment => return unwindSpecs t layers ++ (← billSettlement t layers)

/-- Posts what settles `t` to another transaction. Nothing is posted unless everything can be. -/
def Strategy.settle (strategy : Strategy) (t : Transaction) (layers : BaseLayers)
    (completion : Transaction) : Except LedgerError Transaction := do
  completion.post (← strategy.settlement t layers)

end LayeredLedger
