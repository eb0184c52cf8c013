import LayeredLedger.Keyed
import LayeredLedger.Money.Basic
import LayeredLedger.Tag.Key

/-!
# Requests

A caller asks for a transaction by pairs of a debit and a credit. The metadata of a pair say what
kind of entry it is and whether limits are left out.

* `EntryKind`, `TransactionGroup` and their names;
* `Metadata`; `EntryRequest` with `kind?`, `skipsLimits`, `feeLimit?`;
* `AmountBounds`: the amounts that a caller allows.
-/

namespace LayeredLedger

/-- The kind of an entry. -/
inductive EntryKind where
  /-- The principal amount. -/
  | amount
  | fee
  /-- A commission, paid by an expense account. -/
  | commission
  /-- A rebate to the payer. -/
  | rebate
  | other (name : String)
deriving DecidableEq

namespace EntryKind

def ofName : String → EntryKind
  | "AMOUNT" => amount
  | "FEE" => fee
  | "COMMISSION" => commission
  | "REBATE" => rebate
  | name => other name

def name : EntryKind → String
  | amount => "AMOUNT"
  | fee => "FEE"
  | commission => "COMMISSION"
  | rebate => "REBATE"
  | other name => name

/-- The kind has no meaning for the ledger. -/
def isOther : EntryKind → Bool
  | other _ => true
  | _ => false

@[simp] theorem name_ofName (s : String) : (ofName s).name = s := by
  unfold ofName
  split <;> rfl

end EntryKind

/-- The business that a transaction belongs to. -/
inductive TransactionGroup where
  /-- Between persons. -/
  | p2p
  | inbound
  | outbound
  | billPayment
  | other (name : String)
deriving DecidableEq

namespace TransactionGroup

def ofName : String → TransactionGroup
  | "P2P" => p2p
  | "INBOUND" => inbound
  | "OUTBOUND" => outbound
  | "BILL_PAYMENT" => billPayment
  | name => other name

def name : TransactionGroup → String
  | p2p => "P2P"
  | inbound => "INBOUND"
  | outbound => "OUTBOUND"
  | billPayment => "BILL_PAYMENT"
  | other name => name

/-- The group has no meaning for the ledger. -/
def isOther : TransactionGroup → Bool
  | other _ => true
  | _ => false

@[simp] theorem name_ofName (s : String) : (ofName s).name = s := by
  unfold ofName
  split <;> rfl

end TransactionGroup

/-- The key of a metadata value. -/
def metadataKey (m : String × String) : String := m.1

/-- Values by key, in order of the keys. -/
abbrev Metadata := Keyed metadataKey

/-- The value under a key. -/
def Metadata.value? (m : Metadata) (key : String) : Option String := (m.get? key).map Prod.snd

/-- A debit and a credit of one amount. -/
structure EntryRequest where
  /-- The code of the account to debit. -/
  debit : String
  /-- The code of the account to credit. -/
  credit : String
  amount : Money
  detail : String
  metadata : Metadata

namespace EntryRequest

/-- The kind of the entry, if the metadata name one. -/
def kind? (r : EntryRequest) : Option EntryKind := (r.metadata.value? "type").map .ofName

/-- The entry leaves limits and bounds out. -/
def skipsLimits (r : EntryRequest) : Bool := (r.metadata.value? "skip_limits").any saysTrue

/-- The limit on fees, as the metadata have it. -/
def feeLimit? (r : EntryRequest) : Option String := r.metadata.value? "fee_limit"

end EntryRequest

/-- The least and the largest amount that a caller allows. -/
structure AmountBounds where
  min : Decimal
  max : Decimal
deriving DecidableEq

def AmountBounds.contains (b : AmountBounds) (amount : Decimal) : Bool :=
  b.min ≤ amount && amount ≤ b.max

end LayeredLedger
