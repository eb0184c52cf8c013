import LayeredLedger.Posting.Transaction

/-!
# Calls that post

A caller posts to a transaction that it keeps: a batch of specs, one spec, or an entry without tags
of its own. A call answers with what it posted and leaves a transaction behind, the one it was
given if the call is refused.

* `Transaction.postBatch`, `Transaction.postSpec`, `Transaction.createEntry`: the calls;
* `EntryBuilder`: an entry that is put together step by step and then posted to either side.
-/

namespace LayeredLedger

namespace Transaction

/-- Posts a batch and answers with its entries. -/
def postBatch (t : Transaction) (specs : List EntrySpec) :
    Except LedgerError (List Entry) × Transaction :=
  match t.post specs with
  | .error e => (.error e, t)
  | .ok after => (.ok (after.entries.drop t.entries.length), after)

/-- Posts a batch of one spec and answers with its entry. -/
def postSpec (t : Transaction) (s : EntrySpec) : Except LedgerError Entry × Transaction :=
  match t.postBatch [s] with
  | (.error e, after) => (.error e, after)
  | (.ok entries, after) =>
    match entries.head? with
    | some e => (.ok e, after)
    | none => (.error (.internal "executed spec produced no entry"), after)

/-- Posts one entry that carries the tags of the transaction. -/
def createEntry (t : Transaction) (side : Side) (account : Account) (amount : Decimal)
    (detail : String) (layer : Layer) : Except LedgerError Entry × Transaction :=
  if amount ≤ 0 then (.error (.invalidAmount account.code amount), t)
  else
    let e : Entry := ⟨account, side, amount, layer, detail, t.tags⟩
    (.ok e, { t with entries := t.entries ++ [e] })

end Transaction

/-- An entry before it is known to which side it goes. -/
structure EntryBuilder where
  account : Account
  amount : Decimal
  layer : Layer
  detail : String
  tags? : Option Tags

namespace EntryBuilder

/-- Starts an entry without tags of its own. -/
def start (account : Account) (amount : Decimal) (layer : Layer) (detail : String) :
    EntryBuilder :=
  ⟨account, amount, layer, detail, none⟩

/-- The entry with tags of its own. -/
def tagged (b : EntryBuilder) (tags : Tags) : EntryBuilder := { b with tags? := some tags }

/-- The entry as a spec. -/
def spec (b : EntryBuilder) (side : Side) : EntrySpec :=
  ⟨b.account, side, b.amount, b.layer, b.detail, b.tags?⟩

/-- Posts the entry to a side of its account. -/
def post (b : EntryBuilder) (side : Side) (t : Transaction) :
    Except LedgerError Entry × Transaction :=
  t.postSpec (b.spec side)

/-- The entry of a spec, put together again. -/
def ofSpec (s : EntrySpec) : EntryBuilder :=
  let b := start s.account s.amount s.layer s.detail
  match s.tags? with
  | some tags => b.tagged tags
  | none => b

end EntryBuilder

end LayeredLedger
