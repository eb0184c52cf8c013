import LayeredLedger.Decimal.Numeral
import LayeredLedger.Money.Currency

/-!
# Money

An amount in the major units of a currency.

* `Money`, its sign tests and its text, such as `USD 12.50`;
* `Money.SameMoney`: equal amounts, by value, of one currency.
-/

namespace LayeredLedger

/-- An amount of a currency. -/
structure Money where
  amount : Decimal
  currency : CurrencyCode
deriving DecidableEq

namespace Money

def zero (currency : CurrencyCode) : Money := ⟨0, currency⟩

def isZero (m : Money) : Bool := m.amount.isZero

def isNegative (m : Money) : Bool := m.amount.isNegative

def isPositive (m : Money) : Bool := 0 < m.amount

/-- The amounts are the same number and the currencies the same. -/
def SameMoney (a b : Money) : Prop := a.amount.SameValue b.amount ∧ a.currency = b.currency

instance (a b : Money) : Decidable (a.SameMoney b) := inferInstanceAs (Decidable (_ ∧ _))

/-- Currency and amount, with a space between. -/
def toText (m : Money) : String := m.currency.text ++ " " ++ m.amount.toText

instance : ToString Money := ⟨toText⟩

end Money

end LayeredLedger
