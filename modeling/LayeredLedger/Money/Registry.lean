import LayeredLedger.Error
import LayeredLedger.Keyed

/-!
# Registries of currencies

A registry gives every currency that the ledger knows a number of its own. Codes and numbers are
both unique, so the layers of two currencies never meet.

* `CurrencyRegistry`, `CurrencyRegistry.register`, `CurrencyRegistry.ofList`;
* `CurrencyRegistry.idOf`: the number of a currency that must be known;
* `CurrencyRegistry.layers`, `CurrencyRegistry.baseLayers`: layers of all currencies.
-/

namespace LayeredLedger

/-- The text of the code of a registered currency. -/
def registeredCode (c : CurrencyCode × CurrencyId) : String := c.1.text

/-- Currencies and their numbers, in order of their codes. -/
structure CurrencyRegistry where
  currencies : Keyed registeredCode
  ids_nodup : currencies.toList.Pairwise fun a b => a.2 ≠ b.2

/-- The base layer of each of some currencies. -/
abbrev BaseLayers := List (CurrencyCode × Layer)

def BaseLayers.get? (layers : BaseLayers) (currency : CurrencyCode) : Option Layer :=
  (layers.find? (·.1 = currency)).map Prod.snd

namespace CurrencyRegistry

def empty : CurrencyRegistry := ⟨∅, .nil⟩

instance : EmptyCollection CurrencyRegistry := ⟨empty⟩

def id? (r : CurrencyRegistry) (code : CurrencyCode) : Option CurrencyId :=
  (r.currencies.get? code.text).map Prod.snd

/-- The number of a currency that must be known. -/
def idOf (r : CurrencyRegistry) (code : CurrencyCode) : Except LedgerError CurrencyId :=
  match r.id? code with
  | some id => .ok id
  | none => .error (.unknownCurrency code.text)

/-- Registers a currency under a number. The number must fit a band, and neither the number nor
the code may be taken. -/
def register (r : CurrencyRegistry) (c : CurrencyCode × Nat) :
    Except LedgerError CurrencyRegistry :=
  match CurrencyId.ofNat? c.2 with
  | none => .error (.bandOverflow c.2)
  | some id =>
    if h : ∀ b ∈ r.currencies.toList, b.2 ≠ id then
      if (r.id? c.1).isSome then .error (.duplicateCurrency c.1.text)
      else .ok {
        currencies := r.currencies.insert (c.1, id)
        ids_nodup := pairwise_insertBy_of r.ids_nodup fun b hb => ⟨(h b hb).symm, h b hb⟩ }
    else .error (.duplicateCurrency s!"id {c.2}")

def ofList (currencies : List (CurrencyCode × Nat)) : Except LedgerError CurrencyRegistry :=
  currencies.foldlM register ∅

/-- The layers of some bands in every currency. -/
def layers (r : CurrencyRegistry) (bands : List Band) : List Layer :=
  r.currencies.toList.flatMap fun c => bands.map (Layer.of · c.2)

/-- The base layer of every currency. -/
def baseLayers (r : CurrencyRegistry) : BaseLayers :=
  r.currencies.toList.map fun c => (c.1, Layer.of .base c.2)

end CurrencyRegistry

end LayeredLedger
