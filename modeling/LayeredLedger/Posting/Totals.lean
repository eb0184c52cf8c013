import LayeredLedger.Keyed
import LayeredLedger.Posting.Transaction

/-!
# Totals

Debits and credits are added up layer by layer, in the order of the entries. A list of entries is
valid if it is not empty, its amounts are above zero and every layer balances.

* `LayerTotals`, `LayerTotals.isBalanced`, `addEntry`: totals by layer;
* `Transaction.layerTotals`, `Transaction.layers`;
* `sideTotals`: the totals of entries of one layer;
* `validate`: the first thing that is wrong with a list of entries.
-/

namespace LayeredLedger

/-- Debits and credits on a layer. -/
structure LayerTotals where
  layer : Layer
  debits : Decimal
  credits : Decimal
deriving DecidableEq

/-- The place of the totals of a layer among those of other layers. -/
def LayerTotals.place (t : LayerTotals) : Nat := t.layer.value

/-- Debits and credits are the same number. -/
def LayerTotals.isBalanced (t : LayerTotals) : Bool := t.debits.SameValue t.credits

/-- Debits and credits by layer, lowest layer first. -/
abbrev Totals := Keyed LayerTotals.place

/-- The totals of a layer; a layer without entries has none. -/
def Totals.at (totals : Totals) (layer : Layer) : LayerTotals :=
  (totals.get? layer.value).getD ⟨layer, 0, 0⟩

/-- Adds an amount to one side of the totals of a layer. -/
def LayerTotals.add (t : LayerTotals) (side : Side) (amount : Decimal) :
    Except Overflow LayerTotals :=
  match side with
  | .debit => (t.debits.add amount).map fun debits => { t with debits }
  | .credit => (t.credits.add amount).map fun credits => { t with credits }

/-- Adds an entry to the totals of its layer. -/
def addEntry (totals : Totals) (e : Entry) : Except Overflow Totals :=
  ((totals.at e.layer).add e.side e.amount).map totals.insert

/-- Debits and credits of a transaction by layer, lowest layer first. -/
def Transaction.layerTotals (t : Transaction) : Except Overflow (List LayerTotals) :=
  (t.entries.foldlM addEntry ∅).map Keyed.toList

/-- The layers of a transaction, lowest first. -/
def Transaction.layers (t : Transaction) : List Layer :=
  (Keyed.ofList (t.entries.map Entry.layer) : Keyed Layer.value).toList

/-- The sums of the debits and of the credits among entries. -/
def sideTotals (entries : List Entry) : Except Overflow (Decimal × Decimal) :=
  entries.foldlM
    (fun (debits, credits) e =>
      match e.side with
      | .debit => (debits.add e.amount).map (·, credits)
      | .credit => (credits.add e.amount).map (debits, ·))
    (0, 0)

/-- Adds an entry to the totals if its amount is above zero. -/
def addValidEntry (totals : Totals) (e : Entry) : Except Failure Totals :=
  if e.amount ≤ 0 then .error (.error (.invalidAmount e.account.code e.amount))
  else orOverflow (addEntry totals e)

/-- The error about the lowest layer that does not balance. -/
def Totals.unbalanced? (totals : Totals) : Option LedgerError :=
  (totals.toList.find? fun t => !t.isBalanced).map fun t => .unbalanced t.layer t.debits t.credits

/-- Checks that there are entries, that their amounts are above zero, and that every layer
balances. The first amount that is wrong comes before any layer. -/
def validate (entries : List Entry) : Except Failure Unit :=
  if entries.isEmpty then .error (.error .noEntries)
  else do
    let totals ← entries.foldlM addValidEntry ∅
    match totals.unbalanced? with
    | some e => .error (.error e)
    | none => .ok ()

end LayeredLedger
