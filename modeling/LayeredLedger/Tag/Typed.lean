import LayeredLedger.Error
import LayeredLedger.Tag.Basic

/-!
# Tags by key

Rules read tags as typed values. A limit that is no decimal is an error if somebody asked for its
key, and a text otherwise. Of several values under one key the last counts, but every one of
them is read.

* `TagMap`, `TagMap.put`;
* `readTagValue`: one value, as its key asks for;
* `TagMap.ofTags`: all tags, with the keys that must be in order;
* `TagMap.decimal?`, `TagMap.flag`, `TagMap.text?`: values of one type.
-/

namespace LayeredLedger

/-- The typed values of tags, by key. -/
structure TagMap where
  get? : TagKey → Option TagValue

namespace TagMap

def empty : TagMap := ⟨fun _ => none⟩

instance : EmptyCollection TagMap := ⟨empty⟩

instance : Inhabited TagMap := ⟨∅⟩

def put (m : TagMap) (key : TagKey) (value : TagValue) : TagMap :=
  ⟨fun k => if k = key then some value else m.get? k⟩

/-- The decimal under a key, if it holds one. -/
def decimal? (m : TagMap) (key : TagKey) : Option Decimal :=
  match m.get? key with
  | some (.decimal amount) => some amount
  | _ => none

/-- The key holds a flag that is set. -/
def flag (m : TagMap) (key : TagKey) : Bool := m.get? key = some (.flag true)

/-- The text under a key, if it holds one. -/
def text? (m : TagMap) (key : TagKey) : Option String :=
  match m.get? key with
  | some (.text value) => some value
  | _ => none

end TagMap

/-- Reads a value as its key asks for. `strict` says for which keys a limit must be a decimal. -/
def readTagValue (strict : TagKey → Bool) (name value : String) : Except LedgerError TagValue :=
  let key := TagKey.ofName name
  if key.isLimit then
    match Decimal.parse? value with
    | some amount => .ok (.decimal amount)
    | none => if strict key then .error (.invalidLimitTag name value) else .ok (.text value)
  else if key.isMarker then .ok (.flag (saysTrue value))
  else .ok (.text value)

namespace TagMap

/-- Reads one pair after others. -/
def putPair (strict : TagKey → Bool) (m : TagMap) (pair : String × String) :
    Except LedgerError TagMap :=
  (readTagValue strict pair.1 pair.2).map (m.put (.ofName pair.1))

/-- Reads tags. `strict` says for which keys a limit must be a decimal. -/
def ofTags (strict : TagKey → Bool) (s : Tags) : Except LedgerError TagMap :=
  s.pairs.foldlM (putPair strict) ∅

@[simp] theorem get?_empty (k : TagKey) : (∅ : TagMap).get? k = none := rfl

theorem get?_put (m : TagMap) (key k : TagKey) (value : TagValue) :
    (m.put key value).get? k = if k = key then some value else m.get? k := rfl

end TagMap

end LayeredLedger
