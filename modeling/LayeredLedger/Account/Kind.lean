import LayeredLedger.Decimal.Basic

/-!
# Sides and kinds

An entry is a debit or a credit, and an account grows on one of the two sides. Bridge accounts
keep transfers balanced; they play the part of an asset or of a liability.

* `Side`: the side of an entry, and the normal side of an account;
* `Side.balanceChange`: what debits and credits do to a balance;
* `BridgeRole`, `AccountKind` and their names in data.
-/

namespace LayeredLedger

/-- Debit or credit. -/
inductive Side where
  | debit
  | credit
deriving DecidableEq, Repr

namespace Side

def opposite : Side → Side
  | debit => credit
  | credit => debit

@[simp] theorem opposite_opposite (s : Side) : s.opposite.opposite = s := by cases s <;> rfl

/-- The name of the normal side of an account. -/
def lowerName : Side → String
  | debit => "debit"
  | credit => "credit"

/-- The name of the side of an entry. -/
def upperName : Side → String
  | debit => "DEBIT"
  | credit => "CREDIT"

/-- The name of a side in reports. -/
def label : Side → String
  | debit => "Debit"
  | credit => "Credit"

/-- The side of a name of a normal side. -/
def ofLowerName? (name : String) : Option Side := [debit, credit].find? (·.lowerName = name)

/-- The side of a name of the side of an entry. -/
def ofUpperName? (name : String) : Option Side := [debit, credit].find? (·.upperName = name)

/-- What debits and credits do to the balance of an account that grows on this side. -/
def balanceChange (side : Side) (debits credits : Decimal) : Except Overflow Decimal :=
  match side with
  | debit => debits.sub credits
  | credit => credits.sub debits

end Side

/-- The part that a bridge account plays. -/
inductive BridgeRole where
  | asset
  | liability
deriving DecidableEq, Repr

namespace BridgeRole

def name : BridgeRole → String
  | asset => "asset"
  | liability => "liability"

def ofName? (name : String) : Option BridgeRole := [asset, liability].find? (·.name = name)

/-- The side on which a bridge grows. -/
def side : BridgeRole → Side
  | asset => .debit
  | liability => .credit

end BridgeRole

/-- What an account is for. -/
inductive AccountKind where
  /-- An account that holds balances. -/
  | final
  /-- An account between others that keeps transfers balanced. -/
  | bridge (role : BridgeRole)
  /-- A folder of accounts. -/
  | composite
deriving DecidableEq, Repr

end LayeredLedger
