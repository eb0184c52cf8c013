import LayeredLedger.Account.Basic

/-!
# Entries

An entry posts an amount to one side of an account on one layer. Before it is posted it is a
spec, which may carry tags of its own.

* `Entry`, `Entry.signedAmount`, `Entry.increases`, `Entry.impact`;
* `EntrySpec`, `EntrySpec.debit`, `EntrySpec.credit`, `EntrySpec.tagged`;
* `Tags.propagate`: the tags of an entry, from its transaction and its spec;
* `firstNotPositive?`: the test that all amounts are above zero.
-/

namespace LayeredLedger

/-- A posted debit or credit. -/
structure Entry where
  account : Account
  side : Side
  amount : Decimal
  layer : Layer
  detail : String
  tags : Tags
deriving DecidableEq

namespace Entry

def isDebit (e : Entry) : Bool := e.side = .debit

def isCredit (e : Entry) : Bool := e.side = .credit

/-- The amount, a credit counted negative. -/
def signedAmount (e : Entry) : Decimal :=
  match e.side with
  | .debit => e.amount
  | .credit => -e.amount

/-- The entry is on the side on which its account grows. -/
def increases (e : Entry) : Bool := e.side = e.account.side

/-- What the entry does to the balance of its account. -/
def impact (e : Entry) : Decimal := if e.increases then e.amount else -e.amount

end Entry

/-- A debit or credit that is not posted yet. -/
structure EntrySpec where
  account : Account
  side : Side
  amount : Decimal
  layer : Layer
  detail : String
  /-- Tags that go to the entry alone. -/
  tags? : Option Tags
deriving DecidableEq

namespace EntrySpec

/-- A spec without tags of its own. -/
def untagged (side : Side) (account : Account) (amount : Decimal) (layer : Layer)
    (detail : String) : EntrySpec :=
  ⟨account, side, amount, layer, detail, none⟩

def debit (account : Account) (amount : Decimal) (layer : Layer) (detail : String) : EntrySpec :=
  untagged .debit account amount layer detail

def credit (account : Account) (amount : Decimal) (layer : Layer) (detail : String) : EntrySpec :=
  untagged .credit account amount layer detail

/-- The spec with tags of its own. -/
def tagged (s : EntrySpec) (tags : Tags) : EntrySpec := { s with tags? := some tags }

end EntrySpec

/-- The tags of an entry: those of its transaction, and after them those of its spec. -/
def Tags.propagate (transaction : Tags) (own? : Option Tags) : Tags :=
  match own? with
  | some own => if transaction.isEmpty then own else transaction.mergedWith own
  | none => transaction

/-- The first spec whose amount is not above zero. -/
def firstNotPositive? (specs : List EntrySpec) : Option EntrySpec :=
  specs.find? fun s => s.amount ≤ 0

end LayeredLedger
