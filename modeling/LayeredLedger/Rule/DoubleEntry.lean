import LayeredLedger.Posting.Totals
import LayeredLedger.Rule.Basic

/-!
# Double entry

On every layer of the rule, the debits and the credits among the entries it looks at have the
same sum. The first layer on which they differ is reported.

* `checkLayer`, `doubleEntry`.
-/

namespace LayeredLedger

/-- Checks that entries balance on a layer. -/
def checkLayer (entries : List Entry) (layer : Layer) : Except Failure Unit := do
  let (debits, credits) ← orOverflow (sideTotals (entries.filter (·.layer = layer)))
  if debits.SameValue credits then .ok () else .error (.error (.unbalanced layer debits credits))

def doubleEntry : Rule where
  name := "DoubleEntry"
  strict := true
  tagKeys := []
  check ctx := ctx.layers.forM (checkLayer ctx.entries)
  questions _ := []

end LayeredLedger
