import LayeredLedger.Proofs.Entries
import LayeredLedger.Proofs.SmallLedger

/-!
# Layers of registered currencies

A registry takes currencies in one by one, and refuses the first with which something is wrong. So
the numbers of an accepted registry are different and fit a band, and no two of its layers meet: a
layer is taken apart into the band and the number it was made of, and nothing else is.

* `Layer.decode?_eq_some_iff`, `Layer.isInBand_iff`: what a layer decodes to;
* `Registrable`, `registryFault?`: what a registry accepts, and what is wrong with a currency;
* `CurrencyRegistry.Holds`: what is in a registry;
* `CurrencyRegistry.Holds.register_cases`, `CurrencyRegistry.Holds.foldlM_register_cases`: one
  currency, and then a list of them;
* `CurrencyRegistry.map_decode?_layers`, `CurrencyRegistry.layers_nodup`: the layers of a registry;
* **`registry_separates_layers`**: all of it.
-/

namespace LayeredLedger

/-! ## Taking layers apart -/

namespace Layer

/-- A layer is the one layer of the band and the currency that it decodes to. -/
theorem decode?_eq_some_iff {layer : Layer} {band : Band} {id : CurrencyId} :
    layer.decode? = some (band, id) ↔ layer = of band id := by
  constructor
  · intro h
    obtain ⟨band', hband, hpair⟩ := Option.map_eq_some_iff.1 h
    obtain ⟨rfl, rfl⟩ := Prod.mk.inj hpair
    have hoffset := Band.offset_of_ofOffset? hband
    have hle : layer.value % bandWidth ≤ layer.value := Nat.mod_le _ _
    refine ext_value ?_
    show layer.value = band'.offset + layer.value % bandWidth
    omega
  · rintro rfl
    exact decode?_of band id

/-- A layer lies in a band exactly if it decodes to this band. -/
theorem isInBand_iff {layer : Layer} {band : Band} :
    layer.isInBand band = true ↔ ∃ id, layer.decode? = some (band, id) := by
  simp only [decode?_eq_some_iff]
  constructor
  · intro h
    simp only [isInBand, Bool.and_eq_true, decide_eq_true_eq] at h
    refine ⟨⟨layer.value - band.offset, by omega⟩, ext_value ?_⟩
    show layer.value = band.offset + (layer.value - band.offset)
    omega
  · rintro ⟨id, rfl⟩
    rw [isInBand_of, decide_eq_true_eq]

end Layer

/-! ## What a registry accepts -/

/-- Currencies that can be registered: the numbers fit a band, and codes and numbers are all
different. -/
structure Registrable (currencies : List (CurrencyCode × Nat)) : Prop where
  fits : ∀ c ∈ currencies, c.2 < bandWidth
  codes : (currencies.map Prod.fst).Nodup
  ids : (currencies.map Prod.snd).Nodup

/-- What is wrong with a currency after others: its number does not fit a band, is taken, or its
code is. -/
def registryFault? (before : List (CurrencyCode × Nat)) (c : CurrencyCode × Nat) :
    Option LedgerError :=
  if bandWidth ≤ c.2 then some (.bandOverflow c.2)
  else if c.2 ∈ before.map Prod.snd then some (.duplicateCurrency s!"id {c.2}")
  else if c.1 ∈ before.map Prod.fst then some (.duplicateCurrency c.1.text)
  else none

theorem registryFault?_eq_none_iff {before : List (CurrencyCode × Nat)} {c : CurrencyCode × Nat} :
    registryFault? before c = none ↔
      c.2 < bandWidth ∧ c.2 ∉ before.map Prod.snd ∧ c.1 ∉ before.map Prod.fst := by
  unfold registryFault?
  split
  · rename_i h
    simp only [reduceCtorEq, false_iff]
    omega
  rename_i hfits
  split
  · rename_i h
    simp [h]
  rename_i hid
  split
  · rename_i h
    simp [h]
  rename_i hcode
  simp only [hid, hcode, not_false_eq_true, and_true, true_iff]
  omega

/-- Currencies that come before others can be registered without them. -/
theorem Registrable.of_append {before after : List (CurrencyCode × Nat)}
    (h : Registrable (before ++ after)) : Registrable before where
  fits c hc := h.fits c (List.mem_append_left after hc)
  codes := by
    have hcodes := h.codes
    rw [List.map_append] at hcodes
    exact hcodes.of_append_left
  ids := by
    have hids := h.ids
    rw [List.map_append] at hids
    exact hids.of_append_left

/-- One more currency can be registered exactly if nothing is wrong with it. -/
theorem registrable_concat_iff {before : List (CurrencyCode × Nat)} {c : CurrencyCode × Nat} :
    Registrable (before ++ [c]) ↔ Registrable before ∧ registryFault? before c = none := by
  rw [registryFault?_eq_none_iff]
  constructor
  · intro h
    have hcodes := h.codes
    have hids := h.ids
    rw [List.map_append, List.nodup_append] at hcodes hids
    refine ⟨h.of_append, h.fits c (by simp), fun hid => ?_, fun hcode => ?_⟩
    · exact hids.2.2 _ hid c.2 (by simp) rfl
    · exact hcodes.2.2 _ hcode c.1 (by simp) rfl
  · rintro ⟨⟨hfits, hcodes, hids⟩, hc, hid, hcode⟩
    refine ⟨fun x hx => ?_, ?_, ?_⟩
    · rcases List.mem_append.1 hx with hx | hx
      · exact hfits x hx
      · rwa [List.mem_singleton.1 hx]
    · rw [List.map_append, List.nodup_append]
      exact ⟨hcodes, by simp, fun a ha b hb e => hcode (by simp_all)⟩
    · rw [List.map_append, List.nodup_append]
      exact ⟨hids, by simp, fun a ha b hb e => hid (by simp_all)⟩

/-- An insertion under a key that nobody has adds one value and keeps all others. -/
theorem insertBy_perm {α κ : Type} [LT κ] [DecidableLT κ] [LE κ] [Std.IsLinearOrder κ]
    [Std.LawfulOrderLT κ] {key : α → κ} {a : α} {l : List α} (h : ∀ b ∈ l, key b ≠ key a) :
    (insertBy key a l).Perm (a :: l) := by
  induction l with
  | nil => exact .refl _
  | cons b l ih =>
    have hne := h b List.mem_cons_self
    have hl := ih fun x hx => h x (List.mem_cons_of_mem b hx)
    rw [insertBy]
    split
    · exact .refl _
    split
    · exact (hl.cons b).trans (.swap a b l)
    · rename_i hab hba
      exact absurd (eq_of_not_key_lt hba hab) hne

namespace CurrencyRegistry

/-- The registry has exactly these currencies. -/
def Holds (r : CurrencyRegistry) (currencies : List (CurrencyCode × Nat)) : Prop :=
  (r.currencies.toList.map fun c => (c.1, c.2.value)).Perm currencies

theorem Holds.empty : (∅ : CurrencyRegistry).Holds [] := .refl _

namespace Holds

variable {r : CurrencyRegistry} {before : List (CurrencyCode × Nat)} (h : r.Holds before)

include h

theorem mem_iff {code : CurrencyCode} {id : CurrencyId} :
    (code, id.value) ∈ before ↔ (code, id) ∈ r.currencies.toList := by
  rw [← List.Perm.mem_iff h, List.mem_map]
  constructor
  · rintro ⟨c, hc, e⟩
    obtain ⟨hcode, hid⟩ := Prod.mk.inj e
    rwa [← hcode, ← CurrencyId.ext_value hid]
  · intro hc
    exact ⟨(code, id), hc, rfl⟩

theorem mem_ids_iff (id : CurrencyId) :
    id.value ∈ before.map Prod.snd ↔ ∃ c ∈ r.currencies.toList, c.2 = id := by
  rw [← (List.Perm.map Prod.snd h).mem_iff, List.map_map, List.mem_map]
  exact exists_congr fun c => and_congr_right fun _ =>
    ⟨CurrencyId.ext_value, congrArg CurrencyId.value⟩

theorem mem_codes_iff {code : CurrencyCode} :
    code ∈ before.map Prod.fst ↔ (r.id? code).isSome = true := by
  rw [← (List.Perm.map Prod.fst h).mem_iff, List.map_map, List.mem_map, id?, Option.isSome_map,
    Option.isSome_iff_exists]
  constructor
  · rintro ⟨c, hc, rfl⟩
    exact ⟨c, Keyed.get?_eq_some_iff.2 ⟨hc, rfl⟩⟩
  · rintro ⟨c, hc⟩
    obtain ⟨hmem, htext⟩ := Keyed.get?_eq_some_iff.1 hc
    exact ⟨c, hmem, CurrencyCode.ext_text htext⟩

theorem registrable : Registrable before := by
  refine ⟨fun c hc => ?_, ?_, ?_⟩
  · obtain ⟨x, -, rfl⟩ := List.mem_map.1 ((List.Perm.mem_iff h).2 hc)
    exact x.2.value_lt
  · rw [← (List.Perm.map Prod.fst h).nodup_iff, List.map_map]
    exact List.pairwise_map.2 (r.currencies.ascending.imp fun hlt e =>
      ne_of_key_lt hlt (congrArg CurrencyCode.text e))
  · rw [← (List.Perm.map Prod.snd h).nodup_iff, List.map_map]
    exact List.pairwise_map.2 (r.ids_nodup.imp fun hne e => hne (CurrencyId.ext_value e))

/-- One step: a currency with which something is wrong is refused for that reason, and any other
is taken in. -/
theorem register_cases (c : CurrencyCode × Nat) :
    (∃ e, registryFault? before c = some e ∧ r.register c = .error e) ∨
      registryFault? before c = none ∧ ∃ r', r.register c = .ok r' ∧ r'.Holds (before ++ [c]) := by
  unfold registryFault? register CurrencyId.ofNat?
  by_cases hfits : c.2 < bandWidth
  swap
  · simp [hfits, Nat.not_lt.1 hfits]
  rw [dif_pos hfits, if_neg (Nat.not_le.2 hfits)]
  dsimp only
  have htaken : c.2 ∈ before.map Prod.snd ↔ ∃ b ∈ r.currencies.toList, b.2 = ⟨c.2, hfits⟩ :=
    h.mem_ids_iff ⟨c.2, hfits⟩
  by_cases hid : c.2 ∈ before.map Prod.snd
  · obtain ⟨x, hx, e⟩ := htaken.1 hid
    rw [if_pos hid, dif_neg fun hall => hall x hx e]
    exact .inl ⟨_, rfl, rfl⟩
  have hfree : ∀ b ∈ r.currencies.toList, b.2 ≠ ⟨c.2, hfits⟩ := fun b hb e =>
    hid (htaken.2 ⟨b, hb, e⟩)
  rw [if_neg hid, dif_pos hfree]
  by_cases hcode : c.1 ∈ before.map Prod.fst
  · rw [if_pos hcode, if_pos (h.mem_codes_iff.1 hcode)]
    exact .inl ⟨_, rfl, rfl⟩
  have hnew : ∀ b ∈ r.currencies.toList, registeredCode b ≠ registeredCode (c.1, ⟨c.2, hfits⟩) := by
    intro b hb e
    have hb' : (b.1, b.2.value) ∈ before := h.mem_iff.2 hb
    exact hcode (List.mem_map.2 ⟨_, hb', CurrencyCode.ext_text e⟩)
  rw [if_neg hcode, if_neg fun hsome => hcode (h.mem_codes_iff.2 hsome)]
  refine .inr ⟨rfl, _, rfl, ?_⟩
  have hperm := (insertBy_perm hnew).map fun c => (c.1, c.2.value)
  exact (hperm.trans (h.cons c)).trans (List.perm_append_singleton c before).symm

/-- A run: all currencies are taken in, or the first of them with which something is wrong ends
it. -/
theorem foldlM_register_cases (l : List (CurrencyCode × Nat)) :
    (∃ r', l.foldlM register r = .ok r' ∧ r'.Holds (before ++ l)) ∨
      ∃ taken c rest e, l = taken ++ c :: rest ∧ Registrable (before ++ taken) ∧
        registryFault? (before ++ taken) c = some e ∧ l.foldlM register r = .error e := by
  induction l generalizing r before with
  | nil => exact .inl ⟨r, rfl, by rwa [List.append_nil]⟩
  | cons c l ih =>
    rw [List.foldlM_cons]
    rcases h.register_cases c with ⟨e, hfault, hr⟩ | ⟨-, next, hnext, hholds⟩
    · refine .inr ⟨[], c, l, e, rfl, ?_, ?_, by rw [hr]; rfl⟩
      · rw [List.append_nil]
        exact h.registrable
      · rwa [List.append_nil]
    · rw [hnext]
      rcases ih hholds with ⟨r', hr', hall⟩ | ⟨taken, d, rest, e, rfl, hregistrable, hfault, hr⟩
      · exact .inl ⟨r', hr', by rwa [List.append_assoc] at hall⟩
      · rw [List.append_assoc] at hregistrable hfault
        exact .inr ⟨c :: taken, d, rest, e, rfl, hregistrable, hfault, hr⟩

end Holds

theorem holds_of_ofList {l : List (CurrencyCode × Nat)} {r : CurrencyRegistry}
    (h : ofList l = .ok r) : r.Holds l := by
  rcases Holds.empty.foldlM_register_cases l with ⟨r', hr', hall⟩ | ⟨_, _, _, e, -, -, -, he⟩
  · obtain rfl := Except.ok.inj (hr'.symm.trans h)
    exact hall
  · cases he.symm.trans h

theorem exists_ofList_iff {l : List (CurrencyCode × Nat)} :
    (∃ r, ofList l = .ok r) ↔ Registrable l := by
  constructor
  · rintro ⟨r, hr⟩
    exact (holds_of_ofList hr).registrable
  · intro h
    rcases Holds.empty.foldlM_register_cases l with
      ⟨r, hr, -⟩ | ⟨taken, c, rest, e, rfl, -, hfault, -⟩
    · exact ⟨r, hr⟩
    · rw [List.append_cons] at h
      have hnone := (registrable_concat_iff.1 h.of_append).2
      cases hnone.symm.trans hfault

theorem ofList_eq_error_iff {l : List (CurrencyCode × Nat)} {e : LedgerError} :
    ofList l = .error e ↔ ∃ before c after, l = before ++ c :: after ∧ Registrable before ∧
      registryFault? before c = some e := by
  constructor
  · intro h
    rcases Holds.empty.foldlM_register_cases l with
      ⟨r, hr, -⟩ | ⟨before, c, after, e', hl, hregistrable, hfault, he⟩
    · cases hr.symm.trans h
    · obtain rfl := Except.error.inj (he.symm.trans h)
      exact ⟨before, c, after, hl, hregistrable, hfault⟩
  · rintro ⟨before, c, after, rfl, hregistrable, hfault⟩
    obtain ⟨r, hr⟩ := exists_ofList_iff.2 hregistrable
    have hstep : r.register c = .error e := by
      rcases (holds_of_ofList hr).register_cases c with ⟨e', hfault', he⟩ | ⟨hnone, -⟩
      · rwa [Option.some.inj (hfault.symm.trans hfault')]
      · cases hnone.symm.trans hfault
    rw [ofList, List.foldlM_append]
    show (ofList before >>= fun r => (c :: after).foldlM register r) = _
    rw [hr]
    show (r.register c >>= fun r => after.foldlM register r) = _
    rw [hstep]
    rfl

/-! ## The layers of a registry -/

/-- The bands and numbers that layers of a registry are made of, one for each currency and band. -/
def parts (r : CurrencyRegistry) (bands : List Band) : List (Band × CurrencyId) :=
  r.currencies.toList.flatMap fun c => bands.map fun band => (band, c.2)

theorem layers_eq (r : CurrencyRegistry) (bands : List Band) :
    r.layers bands = (r.parts bands).map fun part => Layer.of part.1 part.2 := by
  simp only [layers, parts, List.map_flatMap, List.map_map]
  rfl

theorem parts_nodup (r : CurrencyRegistry) {bands : List Band} (h : bands.Nodup) :
    (r.parts bands).Nodup := by
  refine List.nodup_flatMap.2 ⟨fun c _ => h.map fun a b e => (Prod.mk.inj e).1, ?_⟩
  refine r.ids_nodup.imp fun {c d} hne => ?_
  intro part hc hd
  obtain ⟨_, -, rfl⟩ := List.mem_map.1 hc
  obtain ⟨_, -, e⟩ := List.mem_map.1 hd
  exact hne (Prod.mk.inj e).2.symm

theorem map_decode?_layers (r : CurrencyRegistry) (bands : List Band) :
    (r.layers bands).map Layer.decode? = (r.parts bands).map some := by
  rw [layers_eq, List.map_map]
  exact List.map_congr_left fun part _ => Layer.decode?_of part.1 part.2

theorem length_layers (r : CurrencyRegistry) (bands : List Band) :
    (r.layers bands).length = r.currencies.toList.length * bands.length := by
  simp [layers, List.length_flatMap]

theorem layers_nodup (r : CurrencyRegistry) {bands : List Band} (h : bands.Nodup) :
    (r.layers bands).Nodup := by
  refine List.Nodup.of_map Layer.decode? ?_
  rw [map_decode?_layers]
  exact (r.parts_nodup h).map (Option.some_injective _)

end CurrencyRegistry

/-! ## The main result -/

/-- **A registry gives every currency and band a layer of its own.** Currencies are accepted if and
only if their numbers fit a band and codes and numbers are all different. If not, the error is
about the first currency with which something is wrong after those before it.

The layers of an accepted registry in some bands are all different, one for each currency and band,
and each decodes to the band and the number it was made of. Any number at all decodes to a band and
a currency exactly if it is their layer, and it lies in a band exactly if it decodes to it. -/
theorem registry_separates_layers (currencies : List (CurrencyCode × Nat)) :
    ((∃ r, CurrencyRegistry.ofList currencies = .ok r) ↔ Registrable currencies) ∧
    (∀ e, CurrencyRegistry.ofList currencies = .error e ↔ ∃ before c after,
      currencies = before ++ c :: after ∧ Registrable before ∧
        registryFault? before c = some e) ∧
    (∀ r, CurrencyRegistry.ofList currencies = .ok r → r.Holds currencies ∧
      ∀ bands : List Band, bands.Nodup →
        (r.layers bands).Nodup ∧
        (r.layers bands).length = currencies.length * bands.length ∧
        (r.layers bands).map Layer.decode? =
          r.currencies.toList.flatMap fun c => bands.map fun band => some (band, c.2)) ∧
    ∀ (n : Nat) (band : Band),
      (∀ id, (Layer.mk n).decode? = some (band, id) ↔ Layer.mk n = .of band id) ∧
      ((Layer.mk n).isInBand band = true ↔ ∃ id, (Layer.mk n).decode? = some (band, id)) := by
  refine ⟨CurrencyRegistry.exists_ofList_iff, fun e => CurrencyRegistry.ofList_eq_error_iff,
    fun r hr => ?_, fun n band => ⟨fun id => Layer.decode?_eq_some_iff, Layer.isInBand_iff⟩⟩
  have hholds := CurrencyRegistry.holds_of_ofList hr
  refine ⟨hholds, fun bands hbands => ⟨r.layers_nodup hbands, ?_, ?_⟩⟩
  · rw [r.length_layers, ← List.Perm.length_eq hholds, List.length_map]
  · rw [r.map_decode?_layers, CurrencyRegistry.parts, List.map_flatMap]
    simp only [List.map_map]
    rfl

namespace SmallLedger

def eur : CurrencyCode := ⟨"EUR", by decide⟩

end SmallLedger

open SmallLedger in
/-- Two currencies with numbers of their own have four layers in two bands; with one number for
both, the second is refused. -/
theorem registry_separates_layers_smallLedger :
    (∃ r, CurrencyRegistry.ofList [(usd, 1), (eur, 2)] = .ok r ∧
      (r.layers [.base, .fee]).Nodup ∧ (r.layers [.base, .fee]).length = 4) ∧
    CurrencyRegistry.ofList [(usd, 1), (eur, 1)] = .error (.duplicateCurrency "id 1") := by
  obtain ⟨haccepted, -, hlayers, -⟩ := registry_separates_layers [(usd, 1), (eur, 2)]
  obtain ⟨-, hrefused, -, -⟩ := registry_separates_layers [(usd, 1), (eur, 1)]
  obtain ⟨r, hr⟩ := haccepted.2 ⟨by decide, by decide, by decide⟩
  obtain ⟨hnodup, hlength, -⟩ := (hlayers r hr).2 [.base, .fee] (by decide)
  refine ⟨⟨r, hr, hnodup, hlength⟩, (hrefused _).2 ⟨[(usd, 1)], (eur, 1), [], rfl, ?_, ?_⟩⟩
  · exact ⟨by decide, by decide, by decide⟩
  · decide +kernel

end LayeredLedger
