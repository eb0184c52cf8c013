import LayeredLedger.Posting.Transaction
import Mathlib

/-!
# Postings

What balances see of an entry, or of a spec, is its account, its side, its amount and its layer.
Amounts are counted exactly, in units.

* `Posting`, `Entry.posting`, `EntrySpec.posting`, `Transaction.postings`;
* `amountsOn`: the amounts on one side of a layer, in posting order;
* `SidesMatch`: on every layer the debits are the same list of amounts as the credits;
* `net`, `netOf`: debits minus credits of some accounts, or of one, on a layer;
* **`SidesMatch.sum_units`**: matching sides have the same exact sum.
-/

namespace LayeredLedger

/-- An amount on a side of an account and a layer. -/
structure Posting where
  account : Account
  side : Side
  amount : Decimal
  layer : Layer
deriving DecidableEq

/-- What balances see of an entry. -/
def Entry.posting (e : Entry) : Posting := ⟨e.account, e.side, e.amount, e.layer⟩

/-- What balances see of a spec. -/
def EntrySpec.posting (s : EntrySpec) : Posting := ⟨s.account, s.side, s.amount, s.layer⟩

/-- What balances see of a transaction. -/
def Transaction.postings (t : Transaction) : List Posting := t.entries.map Entry.posting

namespace Posting

/-- The same amount on the other side. -/
def opposite (p : Posting) : Posting := { p with side := p.side.opposite }

/-- The amount in units, a credit counted negative. -/
def signedUnits (p : Posting) : Int :=
  match p.side with
  | .debit => p.amount.units
  | .credit => -p.amount.units

@[simp] theorem opposite_account (p : Posting) : p.opposite.account = p.account := rfl

@[simp] theorem opposite_side (p : Posting) : p.opposite.side = p.side.opposite := rfl

@[simp] theorem opposite_amount (p : Posting) : p.opposite.amount = p.amount := rfl

@[simp] theorem opposite_layer (p : Posting) : p.opposite.layer = p.layer := rfl

@[simp] theorem signedUnits_opposite (p : Posting) : p.opposite.signedUnits = -p.signedUnits := by
  obtain ⟨a, side, amount, layer⟩ := p
  cases side <;> simp [opposite, signedUnits, Side.opposite]

end Posting

@[simp] theorem Transaction.posting_entryOf (t : Transaction) (s : EntrySpec) :
    (t.entryOf s).posting = s.posting := rfl

theorem Transaction.postings_entryOf (t : Transaction) (specs : List EntrySpec) :
    (specs.map t.entryOf).map Entry.posting = specs.map EntrySpec.posting := by
  rw [List.map_map]
  rfl

/-! ## Sides of a layer -/

/-- The amounts on one side of a layer, in posting order. -/
def amountsOn (side : Side) (layer : Layer) (ps : List Posting) : List Decimal :=
  (ps.filter fun p => p.side = side ∧ p.layer = layer).map Posting.amount

/-- On every layer the debits are the same list of amounts as the credits. -/
def SidesMatch (ps : List Posting) : Prop :=
  ∀ layer, amountsOn .debit layer ps = amountsOn .credit layer ps

@[simp] theorem amountsOn_nil (side : Side) (layer : Layer) : amountsOn side layer [] = [] := rfl

theorem amountsOn_cons (side : Side) (layer : Layer) (p : Posting) (ps : List Posting) :
    amountsOn side layer (p :: ps) =
      if p.side = side ∧ p.layer = layer then p.amount :: amountsOn side layer ps
      else amountsOn side layer ps := by
  by_cases h : p.side = side ∧ p.layer = layer <;> simp [amountsOn, h]

@[simp] theorem amountsOn_append (side : Side) (layer : Layer) (ps qs : List Posting) :
    amountsOn side layer (ps ++ qs) = amountsOn side layer ps ++ amountsOn side layer qs := by
  simp [amountsOn]

/-- The other sides of some layers: the amounts change places and keep their order. -/
theorem amountsOn_opposite (side : Side) (layer : Layer) (ps : List Posting) :
    amountsOn side layer (ps.map Posting.opposite) = amountsOn side.opposite layer ps := by
  have h : ∀ p : Posting, p.side.opposite = side ↔ p.side = side.opposite := fun p => by
    cases hp : p.side <;> cases side <;> simp [Side.opposite]
  induction ps with
  | nil => rfl
  | cons p ps ih =>
    rw [List.map_cons, amountsOn_cons, amountsOn_cons, ih]
    simp only [Posting.opposite_side, Posting.opposite_layer, Posting.opposite_amount, h]

theorem amountsOn_filter_layer (side : Side) (layer : Layer) (chosen : Layer → Bool)
    (ps : List Posting) :
    amountsOn side layer (ps.filter fun p => chosen p.layer) =
      if chosen layer then amountsOn side layer ps else [] := by
  induction ps with
  | nil => simp
  | cons p ps ih =>
    by_cases hp : p.layer = layer
    · by_cases hc : chosen layer = true <;>
        simp [hp, hc, amountsOn_cons, ih]
    · by_cases hc : chosen p.layer = true <;>
        simp [hp, hc, amountsOn_cons, ih]

namespace SidesMatch

theorem nil : SidesMatch [] := fun _ => rfl

theorem append {ps qs : List Posting} (hp : SidesMatch ps) (hq : SidesMatch qs) :
    SidesMatch (ps ++ qs) := fun layer => by
  rw [amountsOn_append, amountsOn_append, hp layer, hq layer]

theorem flatten {lists : List (List Posting)} (h : ∀ ps ∈ lists, SidesMatch ps) :
    SidesMatch lists.flatten := by
  induction lists with
  | nil => exact nil
  | cons ps lists ih =>
    rw [List.flatten_cons]
    exact (h ps (by simp)).append (ih fun qs hq => h qs (by simp [hq]))

theorem pair (side : Side) (a b : Account) (amount : Decimal) (layer : Layer) :
    SidesMatch [⟨a, side, amount, layer⟩, ⟨b, side.opposite, amount, layer⟩] := fun l => by
  by_cases h : layer = l <;> cases side <;> simp [amountsOn_cons, Side.opposite, h]

theorem opposite {ps : List Posting} (h : SidesMatch ps) :
    SidesMatch (ps.map Posting.opposite) := fun layer => by
  rw [amountsOn_opposite, amountsOn_opposite]
  exact (h layer).symm

theorem filter_layer {ps : List Posting} (h : SidesMatch ps) (chosen : Layer → Bool) :
    SidesMatch (ps.filter fun p => chosen p.layer) := fun layer => by
  rw [amountsOn_filter_layer, amountsOn_filter_layer, h layer]

/-- Matching sides have the same exact sum. -/
theorem sum_units {ps : List Posting} (h : SidesMatch ps) (layer : Layer) :
    ((amountsOn .debit layer ps).map Decimal.units).sum =
      ((amountsOn .credit layer ps).map Decimal.units).sum := by
  rw [h layer]

end SidesMatch

/-! ## Nets -/

/-- Debits minus credits of some accounts on a layer, in units. -/
def net (who : Account → Bool) (layer : Layer) (ps : List Posting) : Int :=
  (ps.map fun p => if who p.account ∧ p.layer = layer then p.signedUnits else 0).sum

section Net

variable (who : Account → Bool) (layer : Layer)

@[simp] theorem net_nil : net who layer [] = 0 := rfl

@[simp] theorem net_cons (p : Posting) (ps : List Posting) :
    net who layer (p :: ps) =
      (if who p.account ∧ p.layer = layer then p.signedUnits else 0) + net who layer ps := by
  simp [net]

@[simp] theorem net_append (ps qs : List Posting) :
    net who layer (ps ++ qs) = net who layer ps + net who layer qs := by
  simp [net]

theorem net_flatMap {α : Type} (l : List α) (f : α → List Posting) :
    net who layer (l.flatMap f) = (l.map fun a => net who layer (f a)).sum := by
  induction l with
  | nil => rfl
  | cons a l ih => rw [List.flatMap_cons, net_append, ih, List.map_cons, List.sum_cons]

@[simp] theorem net_opposite (ps : List Posting) :
    net who layer (ps.map Posting.opposite) = -net who layer ps := by
  induction ps with
  | nil => rfl
  | cons p ps ih =>
    rw [List.map_cons, net_cons, net_cons, ih, Posting.opposite_account, Posting.opposite_layer,
      Posting.signedUnits_opposite]
    split <;> omega

theorem net_filter_layer (chosen : Layer → Bool) (ps : List Posting) :
    net who layer (ps.filter fun p => chosen p.layer) =
      if chosen layer then net who layer ps else 0 := by
  induction ps with
  | nil => simp
  | cons p ps ih =>
    by_cases hp : p.layer = layer
    · by_cases hc : chosen layer = true <;> simp [hp, hc, ih]
    · by_cases hc : chosen p.layer = true <;> simp [hp, hc, ih]

theorem net_eq_zero {ps : List Posting} (h : ∀ p ∈ ps, p.layer ≠ layer) : net who layer ps = 0 := by
  induction ps with
  | nil => rfl
  | cons p ps ih =>
    rw [net_cons, if_neg fun hp => h p (by simp) hp.2, ih fun q hq => h q (by simp [hq]), zero_add]

theorem net_nonpos {ps : List Posting}
    (h : ∀ p ∈ ps, who p.account → p.layer = layer → p.signedUnits ≤ 0) : net who layer ps ≤ 0 := by
  induction ps with
  | nil => rfl
  | cons p ps ih =>
    have hrest := ih fun q hq => h q (by simp [hq])
    rw [net_cons]
    split
    · rename_i hp
      have hfirst := h p (by simp) hp.1 hp.2
      omega
    · omega

theorem exists_of_net_ne_zero {ps : List Posting} (h : net who layer ps ≠ 0) :
    ∃ p ∈ ps, who p.account ∧ p.layer = layer := by
  by_contra hnone
  refine h (List.sum_eq_zero fun n hn => ?_)
  obtain ⟨p, hp, rfl⟩ := List.mem_map.1 hn
  exact if_neg fun hwho => hnone ⟨p, hp, hwho⟩

end Net

/-- The net of one account on a layer. -/
def netOf (x : Account) (layer : Layer) (ps : List Posting) : Int :=
  net (fun a => a = x) layer ps

theorem netOf_append (x : Account) (layer : Layer) (ps qs : List Posting) :
    netOf x layer (ps ++ qs) = netOf x layer ps + netOf x layer qs :=
  net_append _ layer ps qs

end LayeredLedger
