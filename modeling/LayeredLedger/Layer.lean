/-!
# Layers

A balance lives on a layer: a number that says what the balance means and in which currency it
is. The numbers are cut into bands of one thousand. A layer is the offset of a band plus the
small number of a currency, so it can be taken apart again.

* `Band`, `Band.offset`, `Band.ofOffset?`, `Band.label`, `Band.key`;
* `CurrencyId`: a number of a currency, below the width of a band;
* `Layer`, `Layer.of`, `Layer.decode?`, `Layer.isInBand`, `Layer.withBand`;
* **`Layer.decode?_of`**: a layer decodes to the band and currency that it was made of.
-/

namespace LayeredLedger

/-- How many layers a band holds. -/
def bandWidth : Nat := 1000

/-- What a balance means. -/
inductive Band where
  /-- Settled balances. -/
  | base
  /-- Funds of transactions that are not completed. -/
  | pending
  /-- Credit given to an account. -/
  | creditAllowances
  /-- Reserved funds. -/
  | onHold
  /-- Usage that counts against a daily limit. -/
  | dailyLimit
  /-- Usage that counts against a limit for all time. -/
  | cumulativeLimit
  /-- Fees. -/
  | fee
deriving DecidableEq, Repr

namespace Band

/-- The bands, lowest offset first. -/
def all : List Band :=
  [base, pending, creditAllowances, onHold, dailyLimit, cumulativeLimit, fee]

/-- The bands that are unwound when a pending transaction completes. -/
def unwound : List Band :=
  [pending, onHold, fee, dailyLimit, cumulativeLimit, creditAllowances]

def offset : Band → Nat
  | base => 0
  | pending => 1000
  | creditAllowances => 2000
  | onHold => 3000
  | dailyLimit => 4000
  | cumulativeLimit => 5000
  | fee => 6000

/-- The name of a band in reports. -/
def label : Band → String
  | base => "Base"
  | pending => "Pending"
  | creditAllowances => "Credit Allowances"
  | onHold => "On Hold"
  | dailyLimit => "Daily Limit"
  | cumulativeLimit => "Cumulative Limit"
  | fee => "Fee"

/-- The name of a band in data. -/
def key : Band → String
  | base => "BASE"
  | pending => "PENDING"
  | creditAllowances => "CREDIT_ALLOWANCES"
  | onHold => "ON_HOLD"
  | dailyLimit => "DAILY_LIMIT"
  | cumulativeLimit => "CUMULATIVE_LIMIT"
  | fee => "FEE"

/-- The band of a name in data. -/
def ofKey? (key : String) : Option Band := all.find? (·.key = key)

def ofOffset? (offset : Nat) : Option Band := all.find? (·.offset = offset)

@[simp] theorem ofOffset?_offset (b : Band) : ofOffset? b.offset = some b := by
  cases b <;> decide

theorem offset_of_ofOffset? {n : Nat} {b : Band} (h : ofOffset? n = some b) : b.offset = n := by
  simpa using List.find?_some h

theorem bandWidth_dvd_offset (b : Band) : b.offset % bandWidth = 0 := by
  cases b <;> decide

end Band

/-- The number of a currency. -/
structure CurrencyId where
  value : Nat
  value_lt : value < bandWidth
deriving DecidableEq

namespace CurrencyId

/-- The currency of a number, if it is below the width of a band. -/
def ofNat? (n : Nat) : Option CurrencyId :=
  if h : n < bandWidth then some ⟨n, h⟩ else none

instance : ToString CurrencyId := ⟨fun id => toString id.value⟩

theorem ext_value {a b : CurrencyId} (h : a.value = b.value) : a = b := by
  cases a
  cases b
  cases h
  rfl

end CurrencyId

/-- What a balance means and in which currency it is, as one number. -/
structure Layer where
  value : Nat
deriving DecidableEq

namespace Layer

/-- The layer of a band and a currency. -/
def of (band : Band) (currency : CurrencyId) : Layer := ⟨band.offset + currency.value⟩

/-- The currency part of a layer. -/
def currencyId (layer : Layer) : CurrencyId :=
  ⟨layer.value % bandWidth, Nat.mod_lt _ (by decide)⟩

def band? (layer : Layer) : Option Band :=
  Band.ofOffset? (layer.value - layer.value % bandWidth)

/-- Takes a layer apart. A number outside of all bands is no layer of any currency. -/
def decode? (layer : Layer) : Option (Band × CurrencyId) :=
  layer.band?.map (·, layer.currencyId)

def isInBand (layer : Layer) (band : Band) : Bool :=
  band.offset ≤ layer.value && layer.value < band.offset + bandWidth

/-- The layer of the same currency in another band. -/
def withBand (layer : Layer) (band : Band) : Layer := of band layer.currencyId

theorem ext_value {a b : Layer} (h : a.value = b.value) : a = b := by
  cases a
  cases b
  cases h
  rfl

instance : ToString Layer := ⟨fun layer => toString layer.value⟩

@[simp] theorem value_of (band : Band) (currency : CurrencyId) :
    (of band currency).value = band.offset + currency.value := rfl

@[simp] theorem currencyId_of (band : Band) (currency : CurrencyId) :
    (of band currency).currencyId = currency := by
  apply CurrencyId.ext_value
  simp only [currencyId, value_of, Nat.add_mod, Band.bandWidth_dvd_offset, Nat.zero_add,
    Nat.mod_eq_of_lt currency.value_lt]

@[simp] theorem band?_of (band : Band) (currency : CurrencyId) :
    (of band currency).band? = some band := by
  have h : (of band currency).value % bandWidth = currency.value :=
    congrArg CurrencyId.value (currencyId_of band currency)
  rw [band?, h, value_of, Nat.add_sub_cancel, Band.ofOffset?_offset]

/-- A layer decodes to the band and currency that it was made of. -/
@[simp] theorem decode?_of (band : Band) (currency : CurrencyId) :
    (of band currency).decode? = some (band, currency) := by
  simp [decode?]

end Layer

end LayeredLedger
