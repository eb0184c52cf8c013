import LayeredLedger.Error
import LayeredLedger.Posting.Entry
import LayeredLedger.Tag.Wire

/-!
# Transactions

A transaction is a list of entries that grows at its end, with tags that go to all entries posted
after them. A batch of specs is posted as a whole or not at all.

* `checkAmounts`: the test that a batch must pass;
* `Transaction`, `Transaction.start`, `Transaction.tag`;
* `Transaction.post`: a batch of specs becomes entries;
* `Transaction.reversalSpecs`, `Transaction.reversal`: the way back;
* `Transaction.isCompleted`, `Transaction.isReversed`, `Transaction.touches`,
  `Transaction.accountCodes`.
-/

namespace LayeredLedger

def checkAmounts (specs : List EntrySpec) : Except LedgerError Unit :=
  match firstNotPositive? specs with
  | some s => .error (.invalidAmount s.account.code s.amount)
  | none => .ok ()

/-- Entries of one journal that belong together. -/
structure Transaction where
  journal : JournalId
  /-- The reference of the transaction. -/
  detail : String
  tags : Tags
  /-- The posting date, in seconds. Whoever keeps the transaction sets it. -/
  postDate : Int
  /-- The entries, first posted first. -/
  entries : List Entry
deriving DecidableEq

namespace Transaction

/-- A transaction without entries. -/
def start (journal : JournalId) (detail : String) (tags : Tags) : Transaction :=
  ⟨journal, detail, tags, 0, []⟩

def tag (t : Transaction) (text : String) : Transaction := { t with tags := t.tags.add text }

/-! ## Posting -/

/-- The entry that a spec becomes. -/
def entryOf (t : Transaction) (s : EntrySpec) : Entry :=
  ⟨s.account, s.side, s.amount, s.layer, s.detail, t.tags.propagate s.tags?⟩

/-- Posts specs in order. Nothing is posted if one of the amounts is not above zero. -/
def post (t : Transaction) (specs : List EntrySpec) : Except LedgerError Transaction :=
  match checkAmounts specs with
  | .error e => .error e
  | .ok () => .ok { t with entries := t.entries ++ specs.map t.entryOf }

/-! ## The way back -/

/-- The spec that takes an entry back. -/
def reversalSpec (e : Entry) : EntrySpec :=
  .untagged e.side.opposite e.account e.amount e.layer e.detail

/-- The specs that take back the entries on chosen layers. -/
def reversalSpecs (t : Transaction) (chosen : Layer → Bool) : List EntrySpec :=
  (t.entries.filter fun e => chosen e.layer).map reversalSpec

/-- A transaction that takes back every entry of this one. -/
def reversal (t : Transaction) (reference : String) : Transaction where
  journal := t.journal
  detail := reference
  tags := t.tags.add ("reverses:" ++ t.detail)
  postDate := 0
  entries := t.entries.map fun e => { e with side := e.side.opposite }

/-! ## Questions -/

def touches (t : Transaction) (band : Band) : Bool := t.entries.any fun e => e.layer.isInBand band

/-- The codes of the accounts, in the order of their first entries. -/
def accountCodes (t : Transaction) : List String :=
  t.entries.foldl
    (fun codes e => if e.account.code ∈ codes then codes else codes ++ [e.account.code]) []

def completedMark : String := "completed:true"

def reversedMark : String := "reversed:true"

def isCompleted (t : Transaction) : Bool := completedMark ∈ t.tags

def isReversed (t : Transaction) : Bool := reversedMark ∈ t.tags

end Transaction

end LayeredLedger
