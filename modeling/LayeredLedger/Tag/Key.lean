import LayeredLedger.Decimal.Numeral

/-!
# Known keys

Some keys of tags have a meaning for the ledger. A value under a limit key is a decimal, one
under a marker key is a flag, and any other value is a text.

* `TagKey`, `TagKey.ofName`, `TagKey.name`;
* `TagKey.isLimit`, `TagKey.isMarker`;
* `TagValue`;
* **`TagKey.ofName_injective`**: two names never stand for one key.
-/

namespace LayeredLedger

/-- The key of a tag. -/
inductive TagKey where
  | dailyLimit
  | cumulativeLimit
  | feeLimit
  | group
  | type
  | credit
  | debit
  | completes
  | reverses
  | completed
  | reversed
  | skipLimits
  /-- A key without a meaning for the ledger. -/
  | other (name : String)
deriving DecidableEq

namespace TagKey

def name : TagKey → String
  | dailyLimit => "daily_limit"
  | cumulativeLimit => "cumulative_limit"
  | feeLimit => "fee_limit"
  | group => "group"
  | type => "type"
  | credit => "credit"
  | debit => "debit"
  | completes => "completes"
  | reverses => "reverses"
  | completed => "completed"
  | reversed => "reversed"
  | skipLimits => "skip_limits"
  | other name => name

def ofName : String → TagKey
  | "daily_limit" => dailyLimit
  | "cumulative_limit" => cumulativeLimit
  | "fee_limit" => feeLimit
  | "group" => group
  | "type" => type
  | "credit" => credit
  | "debit" => debit
  | "completes" => completes
  | "reverses" => reverses
  | "completed" => completed
  | "reversed" => reversed
  | "skip_limits" => skipLimits
  | name => other name

/-- The key has a meaning for the ledger. -/
def isKnown : TagKey → Bool
  | other _ => false
  | _ => true

/-- Values under the key are decimals. -/
def isLimit : TagKey → Bool
  | dailyLimit | cumulativeLimit | feeLimit => true
  | _ => false

/-- Values under the key are flags. -/
def isMarker : TagKey → Bool
  | completed | reversed | skipLimits => true
  | _ => false

@[simp] theorem name_ofName (s : String) : (ofName s).name = s := by
  unfold ofName
  split <;> rfl

/-- Two names never stand for one key. -/
theorem ofName_injective {a b : String} (h : ofName a = ofName b) : a = b := by
  rw [← name_ofName a, h, name_ofName]

end TagKey

/-- The value of a tag, read as its key asks for. -/
inductive TagValue where
  | decimal (amount : Decimal)
  | flag (value : Bool)
  | text (value : String)
deriving DecidableEq

/-- The text says true, in letters of either case. -/
def saysTrue (s : String) : Bool := s.toList.map Char.toLower = "true".toList

end LayeredLedger
