import LayeredLedger.Proofs.Operations

/-!
# A small ledger

One currency, a handful of accounts and the standard rules: enough for every kind of entry, with
recipients that grow on either side. General theorems are tried out on it.

* `SmallLedger.service`, `SmallLedger.accounts`, `SmallLedger.chart`;
* `SmallLedger.suspicious`: the ledger with a rule of its own;
* `SmallLedger.dollars`, `SmallLedger.cents`, `SmallLedger.hairs`, `SmallLedger.largest`: amounts;
* `SmallLedger.entry`, `SmallLedger.request`, `SmallLedger.payment`, `SmallLedger.deposit`,
  `SmallLedger.mixedPayments`: requests for it;
* `SmallLedger.leg`, `SmallLedger.posted`: entries, and transactions of them;
* `SmallLedger.silent`, `SmallLedger.spent`, `SmallLedger.usedTen`: answers to questions for
  balances;
* `SmallLedger.exists_completed`: a request that is created and completed.
-/

namespace LayeredLedger.SmallLedger

def usd : CurrencyCode := ⟨"USD", by decide⟩

def usdId : CurrencyId := ⟨1, by decide⟩

def currencies : CurrencyRegistry := ⟨⟨[(usd, usdId)], by simp⟩, by simp⟩

def service : LedgerService := .standard currencies

/-- A strict rule that takes every transaction for half of a group. -/
def halfReversed : Rule where
  name := "HalfReversed"
  strict := true
  tagKeys := []
  check _ := .error (.error (.partiallyReversedGroup "G1" 1 2))
  questions _ := []

/-- The service with no other rule than this. -/
def suspicious : LedgerService := { service with rules := [.forAll halfReversed []] }

/-! ## Accounts -/

/-- An account, with a number as its identity. -/
def account (n : Nat) (code : String) (side : Side) : Account :=
  .make ⟨.ofNat n⟩ code side usd usdId

/-- The one who pays. -/
def payer : Account := account 1 "payer" .credit

/-- A recipient that grows by credits. -/
def wallet : Account := account 2 "wallet" .credit

/-- A recipient that grows by debits. -/
def merchant : Account := account 3 "merchant" .debit

/-- An account that pays rebates. -/
def promo : Account := account 4 "promo" .debit

/-- An account that pays commissions. -/
def expense : Account := { account 5 "expense" .debit with tags := .ofList ["type:EXPENSE"] }

def assetBridge : Account := (account 6 "asset-bridge" .debit).withKind (.bridge .asset)

def liabilityBridge : Account :=
  (account 7 "liability-bridge" .credit).withKind (.bridge .liability)

def accounts : List Account :=
  [payer, wallet, merchant, promo, expense, assetBridge, liabilityBridge]

def chart : Chart := .ofList accounts

theorem injOn_id : Set.InjOn Account.id {a | a ∈ accounts} := fun a ha b hb =>
  (by decide +kernel : ∀ a ∈ accounts, ∀ b ∈ accounts, a.id = b.id → a = b) a ha b hb

/-! ## Requests -/

/-- A whole number of dollars, at most two hundred and fifty-five. -/
def dollars (n : Fin 256) : Decimal :=
  ⟨false, n, 0, Nat.lt_trans n.isLt (by decide), Nat.zero_le _⟩

/-- An amount in cents, at most two hundred and fifty-five. -/
def cents (n : Fin 256) : Decimal := ⟨false, n, 2, Nat.lt_trans n.isLt (by decide), by decide⟩

/-- A few of the smallest amounts that there are. -/
def hairs (n : Fin 256) : Decimal :=
  ⟨false, n, maxScale, Nat.lt_trans n.isLt (by decide), Nat.le_refl _⟩

/-- The largest decimal. -/
def largest : Decimal := ⟨false, mantissaBound - 1, 0, by decide, Nat.zero_le _⟩

/-- A debit of one account and a credit of another, of some kind. -/
def entry (kind : EntryKind) (debit credit : Account) (amount : Fin 256) : EntryRequest where
  debit := debit.code
  credit := credit.code
  amount := ⟨dollars amount, usd⟩
  detail := kind.name
  metadata := .ofList [("type", kind.name)]

/-- The limit of requests, a thousand dollars. -/
def limit : Decimal := ⟨false, 1000, 0, by decide, Nat.zero_le _⟩

/-- The journal of requests. -/
def journal : JournalId := ⟨.ofNat 8⟩

/-- A request of some group, with a limit that a transaction of this size does not reach. -/
def request (pending : Bool) (group : TransactionGroup) (entries : List EntryRequest) :
    TransactionRequest where
  reference := "T1"
  journal? := some journal
  shape := ⟨pending, group, "TRANSFER"⟩
  metadata := .ofList [("daily_limit", "1000")]
  entries
  bounds? := none

/-- A payment that settles at once. -/
def payment (amount : Fin 256) : TransactionRequest :=
  request false .p2p [entry .amount payer wallet amount]

/-- Money that comes in for the wallet, and waits for completion. -/
def deposit (amount : Fin 256) : TransactionRequest :=
  request true .inbound [entry .amount payer wallet amount]

/-- Two principal amounts, of which one leaves limits out, a fee, and a bridge that pays. -/
def mixedPayments : TransactionRequest :=
  request false .p2p
    [entry .amount payer wallet 40, entry .fee payer merchant 3,
      { entry .amount payer wallet 5 with
        metadata := .ofList [("type", "AMOUNT"), ("skip_limits", "True")] },
      entry .amount assetBridge wallet 7]

/-! ## Entries -/

/-- A posted amount of dollars. -/
def leg (side : Side) (a : Account) (amount : Decimal) (band : Band) : Entry :=
  ⟨a, side, amount, .of band usdId, "", ∅⟩

def posted (entries : List Entry) : Transaction :=
  { Transaction.start journal "T1" ∅ with entries }

/-- A fee is paid short, and its layer comes after one that balances. -/
def shortFee : Transaction :=
  posted [leg .debit payer (dollars 3) .fee, leg .debit payer (dollars 5) .base,
    leg .credit merchant (dollars 2) .fee, leg .credit wallet (dollars 5) .base]

/-- The same amount is debited twice and credited once, with cents. -/
def halfPaid : Transaction :=
  posted [leg .debit payer (dollars 2) .base, leg .debit promo (dollars 2) .base,
    leg .credit wallet (cents 200) .base]

/-- The largest amount there is, debited twice. -/
def largestTwice : Transaction :=
  posted [leg .debit payer largest .base, leg .debit promo largest .base]

/-- A payment in two parts. -/
def twoParts : Transaction :=
  posted [leg .debit payer (cents 250) .base, leg .credit wallet (cents 125) .base,
    leg .credit merchant (cents 125) .base]

/-- The same payment, under a reference that ends in a blank. -/
def twin : Transaction := { twoParts with detail := "T1 " }

/-- The debits are above the credits, by as little as possible. -/
def offByAHair : Transaction :=
  posted [leg .debit payer (hairs 1) .base, leg .debit promo (dollars 10) .base,
    leg .credit wallet (dollars 10) .base]

/-- Debits and credits are the same amounts, in different order. -/
def hairsFirstAndLast : Transaction :=
  posted [leg .debit payer (hairs 4) .base, leg .debit payer (hairs 4) .base,
    leg .debit payer (dollars 10) .base, leg .credit wallet (dollars 10) .base,
    leg .credit wallet (hairs 4) .base, leg .credit wallet (hairs 4) .base]

/-! ## Answers and runs -/

/-- A store that does not answer. -/
def silent : BalanceLookup := fun _ => .ok (.error (.unavailable "down"))

/-- A store in which everybody has a balance of ten dollars. -/
def spent : BalanceLookup := fun _ => .ok (.ok (dollars 10))

/-- The payer has used ten dollars of the daily limit. -/
def usedTen : BalanceStore :=
  (∅ : BalanceStore).set journal payer (.of .dailyLimit usdId) (dollars 10)

/-- The payer has used ten dollars of the daily limit, and a merchant less than nothing. -/
def usedByTwo : BalanceStore :=
  usedTen.set journal merchant (.of .dailyLimit usdId) (-dollars 5)

/-- The request is created, and completed while the store is silent. -/
def settles (request : TransactionRequest) : Bool :=
  let completed : Except Failure Bool := do
    let t ← service.create request chart silent
    let _ ← service.approve silent (service.completionDraft t "T2")
    return t.isCompleted
  completed = .ok false

theorem exists_completed {request : TransactionRequest} (h : settles request = true) :
    ∃ t c t', service.create request chart silent = .ok t ∧
      service.complete t "T2" silent = (.ok (.completed c), t') := by
  obtain ⟨t, ht, h⟩ := bind_eq_ok.1 (of_decide_eq_true h)
  obtain ⟨c, hc, h⟩ := bind_eq_ok.1 h
  have hf : t.isCompleted = false := Except.ok.inj h
  exact ⟨t, c, _, ht, LedgerService.complete_eq_completed.2 ⟨hf, hc, rfl⟩⟩

end LayeredLedger.SmallLedger
