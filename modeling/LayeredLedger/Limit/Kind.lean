import LayeredLedger.Layer
import LayeredLedger.Tag.Key

/-!
# Limits

There are two limits on what an account may spend. Usage is recorded on a layer of its own, and
the limit itself stands in a tag of the transaction.

* `LimitKind`, its tag, its band and the names of its rule.
-/

namespace LayeredLedger

/-- Which limit. -/
inductive LimitKind where
  /-- Usage counts until the next reset. -/
  | daily
  /-- Usage counts for all time. -/
  | cumulative
deriving DecidableEq, Repr

namespace LimitKind

/-- The key of the tag that holds the limit. -/
def tagKey : LimitKind → TagKey
  | daily => .dailyLimit
  | cumulative => .cumulativeLimit

def band : LimitKind → Band
  | daily => .dailyLimit
  | cumulative => .cumulativeLimit

/-- The name of the rule that enforces the limit. -/
def ruleName : LimitKind → String
  | daily => "DailyLimitRule"
  | cumulative => "CumulativeLimitRule"

/-- The name of the limit in messages. -/
def label : LimitKind → String
  | daily => "Daily"
  | cumulative => "Cumulative"

end LimitKind

end LayeredLedger
