import LayeredLedger.Posting.Totals

/-!
# Movement reports

A report explains a transaction layer by layer: which account paid which other one. A debit is
paired with the first credit of the same amount and detail that is still free; what finds no
partner is listed by itself, debits first.

* `Movement`, `Unmatched`, `LayerMovements`, `MovementReport`;
* `pairOff`: the pairing of debits and credits;
* `MovementReport.ofTransaction`, `MovementReport.isBalanced`;
* `MovementReport.render`: the report as text.
-/

namespace LayeredLedger

/-- A debit and a credit of the same amount and detail. -/
structure Movement where
  debitAccount : String
  creditAccount : String
  amount : Decimal
  detail : String
deriving DecidableEq

/-- An entry without a partner. -/
structure Unmatched where
  account : String
  side : Side
  amount : Decimal
  detail : String
deriving DecidableEq

/-- The movements on a layer. -/
structure LayerMovements where
  layer : Layer
  movements : List Movement
  unmatched : List Unmatched
  totalDebits : Decimal
  totalCredits : Decimal
deriving DecidableEq

namespace LayerMovements

/-- The name of the band of the layer. -/
def layerName (m : LayerMovements) : String :=
  match m.layer.band? with
  | some band => band.label
  | none => "Unknown"

def isBalanced (m : LayerMovements) : Bool := m.totalDebits.SameValue m.totalCredits

end LayerMovements

/-- A transaction, layer by layer. -/
structure MovementReport where
  /-- What the report is about. -/
  label : String
  /-- The reference of the transaction. -/
  transaction : String
  /-- The movements, lowest layer first. -/
  layers : List LayerMovements
deriving DecidableEq

/-! ## Pairing -/

def unmatchedEntry (e : Entry) : Unmatched := ⟨e.account.code, e.side, e.amount, e.detail⟩

/-- A debit and a credit can be paired. -/
def Partners (debit credit : Entry) : Prop :=
  credit.amount.SameValue debit.amount ∧ credit.detail = debit.detail

instance (debit credit : Entry) : Decidable (Partners debit credit) :=
  inferInstanceAs (Decidable (_ ∧ _))

/-- Pairs every debit with the first free credit that it can be paired with. The result holds the
pairs, the debits that are left and the credits that are left. -/
def pairOff : List Entry → List Entry → List (Entry × Entry) × List Entry × List Entry
  | [], credits => ([], [], credits)
  | debit :: debits, credits =>
    match credits.find? fun credit => Partners debit credit with
    | some credit =>
      let (pairs, left, free) :=
        pairOff debits (credits.eraseP fun credit => Partners debit credit)
      ((debit, credit) :: pairs, left, free)
    | none =>
      let (pairs, left, free) := pairOff debits credits
      (pairs, debit :: left, free)

def movementOf (debit credit : Entry) : Movement :=
  ⟨debit.account.code, credit.account.code, debit.amount, debit.detail⟩

def layerMovements (layer : Layer) (entries : List Entry) : Except Overflow LayerMovements := do
  let (pairs, debits, credits) :=
    pairOff (entries.filter Entry.isDebit) (entries.filter Entry.isCredit)
  let (totalDebits, totalCredits) ← sideTotals entries
  return {
    layer
    movements := pairs.map fun (debit, credit) => movementOf debit credit
    unmatched := (debits ++ credits).map unmatchedEntry
    totalDebits
    totalCredits }

namespace MovementReport

def ofTransaction (t : Transaction) (label : String) : Except Overflow MovementReport := do
  let layers ← t.layers.mapM fun layer => layerMovements layer (t.entries.filter (·.layer = layer))
  return ⟨label, t.detail, layers⟩

def isBalanced (r : MovementReport) : Bool := r.layers.all LayerMovements.isBalanced

/-! ## Text -/

def movementLine (m : Movement) : String :=
  s!"    {m.debitAccount} -> {m.creditAccount}: {m.amount} ({m.detail})\n"

/-- The line about an entry without a partner. -/
def unmatchedLine (u : Unmatched) : String :=
  s!"    unmatched {u.side.label} {u.account}: {u.amount} ({u.detail})\n"

def layerLines (m : LayerMovements) : String :=
  s!"  layer {m.layer} ({m.layerName}, currency {m.layer.currencyId}) debits {m.totalDebits}"
    ++ s!" credits {m.totalCredits}\n"
    ++ String.join (m.movements.map movementLine) ++ String.join (m.unmatched.map unmatchedLine)

/-- The report as text, a line for everything it holds. -/
def render (r : MovementReport) : String :=
  s!"{r.label} [{r.transaction}]\n" ++ String.join (r.layers.map layerLines)

end MovementReport

end LayeredLedger
