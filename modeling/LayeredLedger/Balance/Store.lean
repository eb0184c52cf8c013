import LayeredLedger.Posting.Transaction

/-!
# Balances

The balance of an account on a layer of a journal is kept as its debits and its credits. The
ledger itself only asks for balances; whoever runs it says how they are found.

* `LayerBalance`, `LayerBalance.add`, `LayerBalance.balance`;
* `BalanceKey`, `BalanceStore`, `BalanceStore.postEntry`, `BalanceStore.apply`,
  `BalanceStore.set`, `BalanceStore.balance`;
* `BalanceQuery`, `BalanceLookup`, `BalanceStore.lookup`: asking for balances.
-/

namespace LayeredLedger

/-- Debits and credits of an account on a layer. -/
structure LayerBalance where
  /-- The side on which the balance grows. -/
  side : Side
  debits : Decimal
  credits : Decimal
deriving DecidableEq

namespace LayerBalance

def empty (side : Side) : LayerBalance := ⟨side, 0, 0⟩

/-- Adds an amount to the debits or to the credits. -/
def add (b : LayerBalance) (side : Side) (amount : Decimal) : Except Overflow LayerBalance :=
  match side with
  | .debit => (b.debits.add amount).map fun debits => { b with debits }
  | .credit => (b.credits.add amount).map fun credits => { b with credits }

/-- The balance, counted on the side on which it grows. -/
def balance (b : LayerBalance) : Except Overflow Decimal := b.side.balanceChange b.debits b.credits

/-- A balance of which nothing is known but its sum. -/
def ofSum (side : Side) (amount : Decimal) : LayerBalance :=
  match side with
  | .debit => { empty side with debits := amount }
  | .credit => { empty side with credits := amount }

end LayerBalance

/-- Where a balance is kept. -/
structure BalanceKey where
  journal : JournalId
  account : AccountId
  layer : Layer
deriving DecidableEq

/-- All balances. -/
structure BalanceStore where
  get? : BalanceKey → Option LayerBalance

namespace BalanceStore

def empty : BalanceStore := ⟨fun _ => none⟩

instance : EmptyCollection BalanceStore := ⟨empty⟩

def put (store : BalanceStore) (key : BalanceKey) (balance : LayerBalance) : BalanceStore :=
  ⟨fun k => if k = key then some balance else store.get? k⟩

/-- Where an entry of a journal is kept. -/
def keyOf (journal : JournalId) (e : Entry) : BalanceKey := ⟨journal, e.account.id, e.layer⟩

/-- Adds an entry to its balance. A balance grows on the side of the account that first posts
to it. -/
def postEntry (store : BalanceStore) (journal : JournalId) (e : Entry) :
    Except Overflow BalanceStore :=
  let key := keyOf journal e
  let balance := (store.get? key).getD (.empty e.account.side)
  (balance.add e.side e.amount).map (store.put key)

def apply (store : BalanceStore) (t : Transaction) : Except Overflow BalanceStore :=
  t.entries.foldlM (fun store e => store.postEntry t.journal e) store

/-- Sets the balance of an account on a layer, whatever was posted there. -/
def set (store : BalanceStore) (journal : JournalId) (account : Account) (layer : Layer)
    (amount : Decimal) : BalanceStore :=
  store.put ⟨journal, account.id, layer⟩ (.ofSum account.side amount)

/-- The balance of an account on a layer. -/
def balance (store : BalanceStore) (journal : JournalId) (account : Account) (layer : Layer) :
    Except Overflow Decimal :=
  match store.get? ⟨journal, account.id, layer⟩ with
  | some b => b.balance
  | none => .ok 0

@[simp] theorem get?_empty (key : BalanceKey) : (∅ : BalanceStore).get? key = none := rfl

theorem get?_put (store : BalanceStore) (key k : BalanceKey) (b : LayerBalance) :
    (store.put key b).get? k = if k = key then some b else store.get? k := rfl

end BalanceStore

/-! ## Asking for balances -/

/-- The question for the sum of the balances of an account on some layers. -/
structure BalanceQuery where
  journal : JournalId
  account : Account
  layers : List Layer
deriving DecidableEq

/-- What answers questions for balances. An answer may be an error, and its sum may be out of
range. -/
abbrev BalanceLookup := BalanceQuery → Except Overflow (Except LookupError Decimal)

/-- The sum of the balances that a question asks for. -/
def BalanceStore.total (store : BalanceStore) (q : BalanceQuery) : Except Overflow Decimal :=
  q.layers.foldlM (fun sum layer => do sum.add (← store.balance q.journal q.account layer)) 0

/-- The store answers every question. -/
def BalanceStore.lookup (store : BalanceStore) : BalanceLookup := fun q =>
  (store.total q).map .ok

end LayeredLedger
