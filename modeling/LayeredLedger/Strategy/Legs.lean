import LayeredLedger.Posting.Entry
import LayeredLedger.Strategy.Basic

/-!
# The legs of a request

A strategy turns a request into legs in three steps: the movement itself on the base layer, its
image on another layer, and the usage of limits.

* A direct transaction moves the amount at once, repeats fees on the fee layer, and records what
  the payer spends on the two limit layers.
* Money coming in goes from the payer to the liability bridge, whose leg is tagged with the
  recipient. The recipient sees it on the pending layer.
* Of a bill payment only the principal moves on the base layer. Principal, rebates and
  commissions are seen on the pending layer; the legs of those who get a rebate or a commission
  are tagged with the payer.

Definitions: `directLegs`, `inboundLegs`, `billPaymentLegs` from `pendingLegs` and others, and
`Strategy.legs`.
-/

namespace LayeredLedger

/-- The tag that names the account to credit at completion. -/
def creditTag (code : String) : String := "credit:" ++ code

/-- The tag that names the account to debit at completion. -/
def debitTag (code : String) : String := "debit:" ++ code

/-- The tag that names the kind of an entry. -/
def kindTag (kind : EntryKind) : String := "type:" ++ kind.name

/-! ## Direct transactions -/

/-- A debit and a credit of the amount of a request on one layer. -/
def transferLegs (p : EntryPlan) (layer : Layer) : List EntrySpec :=
  [.debit p.debit p.amount layer p.request.detail, .credit p.credit p.amount layer p.request.detail]

/-- A fee once more on the fee layer, with the limit on fees if there is one. -/
def feeLegs (p : EntryPlan) : List EntrySpec :=
  if p.request.kind? = some .fee then
    let tags? := p.request.feeLimit?.map fun limit => Tags.ofList ["fee_limit:" ++ limit]
    (transferLegs p (p.layer .fee)).map fun s => { s with tags? }
  else []

/-- The detail of the legs that record usage. -/
def usageDetail : String := "transaction_limit"

/-- Usage on a limit layer: a credit of the payer against the asset bridge. -/
def usageOn (p : EntryPlan) (bridge : Account) (layer : Layer) : List EntrySpec :=
  [.debit bridge p.amount layer usageDetail, .credit p.debit p.amount layer usageDetail]

/-- What the payer of a principal amount spends, on both limit layers. Bridges spend nothing. -/
def usageLegs (p : EntryPlan) : List EntrySpec :=
  if p.request.kind? = some .amount ∧ ¬p.request.skipsLimits ∧ ¬p.debit.isBridge then
    match p.assetBridge? with
    | some bridge =>
      usageOn p bridge (p.layer .dailyLimit) ++ usageOn p bridge (p.layer .cumulativeLimit)
    | none => []
  else []

def directLegs (p : EntryPlan) : List EntrySpec :=
  transferLegs p (p.layer .base) ++ feeLegs p ++ usageLegs p

/-! ## Pending transactions -/

/-- The movement from the payer into the liability bridge, whose leg carries tags. -/
def intoBridge (p : EntryPlan) (liability : Account) (tags : Tags) : List EntrySpec :=
  let layer := p.layer .base
  [.debit p.debit p.amount layer p.request.detail,
    (EntrySpec.credit liability p.amount layer p.request.detail).tagged tags]

/-- The image of a movement on the pending layer. A recipient that grows by credits gets the
amount through both bridges, one that grows by debits from the liability bridge alone. The
recipient's leg carries tags. -/
def pendingLegs (p : EntryPlan) (asset liability : Account) (tags? : Option Tags) :
    List EntrySpec :=
  let layer := p.layer .pending
  let detail := p.request.detail
  match p.credit.side with
  | .credit =>
    [.debit asset p.amount layer detail,
      .credit liability p.amount layer detail,
      .debit liability p.amount layer detail,
      { EntrySpec.credit p.credit p.amount layer detail with tags? }]
  | .debit =>
    [{ EntrySpec.debit p.credit p.amount layer detail with tags? },
      .credit liability p.amount layer detail]

def inboundLegs (p : EntryPlan) : Except LedgerError (List EntrySpec) := do
  let liability ← p.bridge .liability
  let moved := intoBridge p liability (.ofList [creditTag p.request.credit])
  let asset ← p.bridge .asset
  return moved ++ pendingLegs p asset liability none

/-- The movement of the principal of a bill payment. -/
def billPrincipalLegs (p : EntryPlan) : Except LedgerError (List EntrySpec) :=
  if p.request.kind? = some .amount then do
    let liability ← p.bridge .liability
    return intoBridge p liability (.ofList [creditTag p.request.credit, kindTag .amount])
  else return []

/-- The image of a bill payment on the pending layer. An expense account stands in for the bridge
on the side of the one who gets a commission. -/
def billPendingLegs (p : EntryPlan) : Except LedgerError (List EntrySpec) := do
  let asset ← p.bridge .asset
  let liability ← p.bridge .liability
  match p.request.kind? with
  | some .amount => return pendingLegs p asset liability none
  | some .rebate =>
    return pendingLegs p asset liability
      (some (.ofList [debitTag p.request.debit, kindTag .rebate]))
  | some .commission =>
    if p.debit.isExpense then
      match p.credit.side with
      | .credit =>
        return pendingLegs p p.debit liability
          (some (.ofList [debitTag p.debit.code, kindTag .commission]))
      | .debit => return pendingLegs p asset p.debit none
    else .error (.nonExpenseCommissionAccount p.debit.code)
  | _ => return []

def billPaymentLegs (p : EntryPlan) : Except LedgerError (List EntrySpec) := do
  let principal ← billPrincipalLegs p
  let image ← billPendingLegs p
  return principal ++ image

/-! ## All strategies -/

/-- The legs of a request under a strategy. -/
def Strategy.legs (strategy : Strategy) (p : EntryPlan) : Except LedgerError (List EntrySpec) :=
  match strategy with
  | .direct => .ok (directLegs p)
  | .pendingInbound => inboundLegs p
  | .pendingBillPayment => billPaymentLegs p

end LayeredLedger
