import LayeredLedger.Service.Create
import Mathlib

/-!
# Looking tags up

A tag is added without the blanks around it and merged with other tags, and still gives the key
and the value that it was written with.

* `pair?_cut`, `pair?_trim`, `pair?_append`: the key and the value of a text;
* `Tags.get?_add_self_of_mem`, `Tags.get?_add_self`, `Tags.get?_add_of_ne`: values after one more
  text;
* `lastValue_append`, `lastValue_filter`: the last value of two lists, and of part of a list;
* **`Tags.get?_mergedWith`**, `Tags.get?_propagate`: the tags merged in answer first;
* `shownKey`, `Metadata.IsPlain`: metadata that leave the keys of the ledger alone;
* `Metadata.get?_tags`, `Metadata.get?_tags_eq_none`: a value of metadata, read back from the tags,
  and when there is none.
-/

namespace LayeredLedger

/-! ## Blanks -/

namespace Text

theorem trimChars_append_left {l s : List Char} (h : ∀ c ∈ l, isBlank c = true) :
    trimChars (l ++ s) = trimChars s := by
  rw [trimChars, trimChars, List.dropWhile_append_of_pos h]

theorem trimChars_append_right {s r : List Char} (h : ∀ c ∈ r, isBlank c = true) :
    trimChars (s ++ r) = trimChars s := by
  have hr : ∀ c ∈ r.reverse, isBlank c = true := fun c hc => h c (List.mem_reverse.1 hc)
  rw [trimChars, trimChars, List.dropWhile_append]
  split
  · rename_i hs
    rw [List.isEmpty_iff.1 hs, ← List.append_nil r, List.dropWhile_append_of_pos h]
    rfl
  · rw [List.reverse_append, List.dropWhile_append_of_pos hr]

/-- A text is its trimmed form between blanks. -/
theorem exists_blanks (s : List Char) : ∃ l r, s = l ++ trimChars s ++ r ∧
    (∀ c ∈ l, isBlank c = true) ∧ ∀ c ∈ r, isBlank c = true := by
  refine ⟨s.takeWhile isBlank, ((s.dropWhile isBlank).reverse.takeWhile isBlank).reverse, ?_,
    fun c hc => List.mem_takeWhile_imp hc, fun c hc => ?_⟩
  · rw [trimChars, List.append_assoc, ← List.reverse_append, List.takeWhile_append_dropWhile,
      List.reverse_reverse, List.takeWhile_append_dropWhile]
  · exact List.mem_takeWhile_imp (List.mem_reverse.1 hc)

end Text

/-! ## Keys and values of texts -/

theorem pair?_cut {t : String} {key value : List Char} (ht : t.toList = key ++ ':' :: value)
    (hkey : ':' ∉ key) : pair? t =
      some (String.ofList (Text.trimChars key), String.ofList (Text.trimChars value)) := by
  have h : ∀ c ∈ key, decide (c ≠ ':') = true := fun c hc =>
    decide_eq_true fun e => hkey (e ▸ hc)
  simp only [pair?, ht]
  rw [List.dropWhile_append_of_pos h, List.takeWhile_append_of_pos h]
  simp

theorem pair?_eq_none {t : String} : pair? t = none ↔ ':' ∉ t.toList := by
  constructor
  · intro h hmem
    obtain ⟨key, value, ht, hkey⟩ := List.eq_append_cons_of_mem hmem
    simp [pair?_cut ht hkey] at h
  · intro h
    have hnil : t.toList.dropWhile (· ≠ ':') = [] :=
      List.dropWhile_eq_nil_iff.2 fun c hc => decide_eq_true fun e => h (e ▸ hc)
    simp only [pair?, hnil]

/-- Blanks around a text do not count. -/
@[simp] theorem pair?_trim (t : String) : pair? (Text.trim t) = pair? t := by
  obtain ⟨l, r, hs, hl, hr⟩ := Text.exists_blanks t.toList
  by_cases hmem : ':' ∈ Text.trimChars t.toList
  · obtain ⟨key, value, hcut, hkey⟩ := List.eq_append_cons_of_mem hmem
    have hkey' : ':' ∉ l ++ key := fun h => by
      rcases List.mem_append.1 h with h | h
      · exact absurd (hl _ h) (by decide)
      · exact hkey h
    have ht : t.toList = (l ++ key) ++ ':' :: (value ++ r) := by
      rw [hs, hcut]
      simp
    rw [pair?_cut (by rw [Text.toList_trim, hcut]) hkey, pair?_cut ht hkey',
      Text.trimChars_append_left hl, Text.trimChars_append_right hr]
  · have ht : ':' ∉ t.toList := fun h => by
      rw [hs, List.mem_append, List.mem_append] at h
      rcases h with (h | h) | h
      · exact absurd (hl _ h) (by decide)
      · exact hmem h
      · exact absurd (hr _ h) (by decide)
    rw [pair?_eq_none.2 (by rwa [Text.toList_trim]), pair?_eq_none.2 ht]

/-- A text that starts with a key and a colon. -/
theorem pair?_append {front key : String} (value : String)
    (hfront : front.toList = key.toList ++ [':']) (hkey : ':' ∉ key.toList)
    (htrim : Text.trim key = key) : pair? (front ++ value) = some (key, Text.trim value) := by
  have ht : (front ++ value).toList = key.toList ++ ':' :: value.toList := by simp [hfront]
  rw [pair?_cut ht hkey]
  exact congrArg (fun k => some (k, Text.trim value)) htrim

/-- The key under which a text is found that starts with these characters and a colon. -/
def shownKey (key : String) : String :=
  Text.trim (String.ofList (key.toList.takeWhile (· ≠ ':')))

theorem fst_pair? (key value : String) :
    (pair? (key ++ ":" ++ value)).map Prod.fst = some (shownKey key) := by
  by_cases hmem : ':' ∈ key.toList
  · obtain ⟨front, back, hcut, hfront⟩ := List.eq_append_cons_of_mem hmem
    have h : ∀ c ∈ front, decide (c ≠ ':') = true := fun c hc =>
      decide_eq_true fun e => hfront (e ▸ hc)
    have ht : (key ++ ":" ++ value).toList = front ++ ':' :: (back ++ ':' :: value.toList) := by
      simp [hcut]
    rw [pair?_cut ht hfront, shownKey, hcut, List.takeWhile_append_of_pos h]
    simp [Text.trim]
  · have h : key.toList.takeWhile (· ≠ ':') = key.toList :=
      List.takeWhile_eq_self_iff.2 fun c hc => decide_eq_true fun e => hmem (e ▸ hc)
    have ht : (key ++ ":" ++ value).toList = key.toList ++ ':' :: value.toList := by simp
    rw [pair?_cut ht hmem, shownKey, h]
    simp [Text.trim]

/-! ## The last value under a key -/

/-- The value of the last pair with a key. -/
def lastValue (key : String) (pairs : List (String × String)) : Option String :=
  ((pairs.filter (·.1 = key)).getLast?).map Prod.snd

theorem lastValue_append (key : String) (ps qs : List (String × String)) :
    lastValue key (ps ++ qs) = (lastValue key qs).or (lastValue key ps) := by
  rw [lastValue, lastValue, lastValue, List.filter_append, List.getLast?_append]
  cases (qs.filter (·.1 = key)).getLast? <;> simp

theorem lastValue_eq_none {key : String} {ps : List (String × String)} :
    lastValue key ps = none ↔ ∀ p ∈ ps, p.1 ≠ key := by
  simp [lastValue]

theorem exists_of_lastValue {key value : String} {texts : List String}
    (h : lastValue key (texts.filterMap pair?) = some value) :
    ∃ t ∈ texts, pair? t = some (key, value) := by
  obtain ⟨p, hp, rfl⟩ := Option.map_eq_some_iff.1 h
  obtain ⟨hmem, hkey⟩ := List.mem_filter.1 (List.mem_of_getLast? hp)
  obtain ⟨t, ht, hpair⟩ := List.mem_filterMap.1 hmem
  obtain rfl : p.1 = key := of_decide_eq_true hkey
  exact ⟨t, ht, hpair⟩

/-- Texts that are left out do not count if none of them has the key. -/
theorem lastValue_filter {key : String} {keep : String → Bool} {texts : List String}
    (h : ∀ t ∈ texts, ∀ value, pair? t = some (key, value) → keep t = true) :
    lastValue key ((texts.filter keep).filterMap pair?) =
      lastValue key (texts.filterMap pair?) := by
  rw [lastValue, lastValue]
  congr 2
  induction texts with
  | nil => rfl
  | cons t texts ih =>
    have ih := ih fun x hx => h x (List.mem_cons_of_mem t hx)
    by_cases ht : keep t = true
    · rw [List.filter_cons_of_pos ht, List.filterMap_cons, List.filterMap_cons]
      cases pair? t with
      | none => exact ih
      | some p => rw [List.filter_cons, List.filter_cons, ih]
    · rw [List.filter_cons_of_neg ht, ih, List.filterMap_cons]
      cases hp : pair? t with
      | none => rfl
      | some p =>
        have hne : p.1 ≠ key := by
          rintro rfl
          exact ht (h t List.mem_cons_self p.2 hp)
        simp [hne]

namespace Tags

theorem get?_eq (s : Tags) (key : String) : s.get? key = lastValue key (s.toList.filterMap pair?) :=
  rfl

@[simp] theorem get?_empty (key : String) : (∅ : Tags).get? key = none := rfl

theorem get?_eq_none {s : Tags} {key : String} :
    s.get? key = none ↔ ∀ t ∈ s, ∀ value, pair? t ≠ some (key, value) := by
  rw [get?_eq, lastValue_eq_none]
  constructor
  · intro h t ht value hp
    exact h (key, value) (List.mem_filterMap.2 ⟨t, ht, hp⟩) rfl
  · rintro h ⟨key', value⟩ hp rfl
    obtain ⟨t, ht, hp⟩ := List.mem_filterMap.1 hp
    exact h t ht value hp

theorem exists_of_get? {s : Tags} {key value : String} (h : s.get? key = some value) :
    ∃ t ∈ s, pair? t = some (key, value) :=
  exists_of_lastValue h

/-! ### Adding -/

theorem toList_add_of_mem {s : Tags} {text : String} (h : Text.trim text ∈ s) :
    s.add text = s :=
  dif_neg fun hne => hne.2 h

theorem toList_add {s : Tags} {text : String} (hne : Text.trim text ≠ "")
    (h : Text.trim text ∉ s) : (s.add text).toList = s.toList ++ [Text.trim text] :=
  congrArg toList (dif_pos ⟨hne, h⟩)

theorem trim_ne_empty {text : String} {p : String × String} (h : pair? text = some p) :
    Text.trim text ≠ "" := fun he => by
  rw [← pair?_trim, he] at h
  cases h

/-- What one more text with a key does to the keys and values. -/
theorem pairs_add {s : Tags} {text : String} {p : String × String} (hp : pair? text = some p) :
    (s.add text).pairs = s.pairs ∨ (s.add text).pairs = s.pairs ++ [p] := by
  by_cases h : Text.trim text ∈ s
  · exact .inl (by rw [toList_add_of_mem h])
  · refine .inr ?_
    rw [pairs, toList_add (trim_ne_empty hp) h, List.filterMap_append]
    simp [hp, pairs]

/-- A text that is added answers its key, also if it is there already, as long as it does not
stand behind another text with that key. -/
theorem get?_add_self_of_mem {s : Tags} {text key value : String}
    (hp : pair? text = some (key, value)) (hs : Text.trim text ∈ s → s.get? key = some value) :
    (s.add text).get? key = some value := by
  by_cases h : Text.trim text ∈ s
  · rw [toList_add_of_mem h, hs h]
  · rw [get?_eq, toList_add (trim_ne_empty hp) h, List.filterMap_append, lastValue_append]
    simp [hp, lastValue]

theorem get?_add_self {s : Tags} {text key value : String} (hp : pair? text = some (key, value))
    (hs : s.get? key = none) : (s.add text).get? key = some value :=
  get?_add_self_of_mem hp fun h =>
    absurd (by rw [pair?_trim, hp]) (get?_eq_none.1 hs _ h value)

theorem get?_add_of_ne {s : Tags} {text key : String}
    (hp : (pair? text).map Prod.fst ≠ some key) : (s.add text).get? key = s.get? key := by
  rw [get?_eq, get?_eq]
  by_cases h : Text.trim text ∈ s
  · rw [toList_add_of_mem h]
  by_cases hne : Text.trim text = ""
  · rw [add, dif_neg fun h => h.1 hne]
  rw [toList_add hne h, List.filterMap_append, lastValue_append,
    lastValue_eq_none.2 fun p hmem e => hp ?_, Option.none_or]
  obtain ⟨t, ht, hpt⟩ := List.mem_filterMap.1 hmem
  rw [List.mem_singleton.1 ht, pair?_trim] at hpt
  rw [hpt, Option.map_some, e]

theorem ofList_concat (texts : List String) (text : String) :
    ofList (texts ++ [text]) = (ofList texts).add text := by
  rw [ofList, ofList, List.foldl_append, List.foldl_cons, List.foldl_nil]

theorem mem_ofList {texts : List String} {t : String} :
    t ∈ ofList texts ↔ ∃ text ∈ texts, Text.trim text = t ∧ t ≠ "" := by
  induction texts using List.reverseRecOn with
  | nil => exact ⟨fun h => absurd h (not_mem_empty t), nofun⟩
  | append_singleton texts text ih =>
    rw [ofList_concat, mem_add, ih]
    constructor
    · rintro (⟨x, hx, h⟩ | ⟨rfl, hne⟩)
      · exact ⟨x, List.mem_append_left _ hx, h⟩
      · exact ⟨text, by simp, rfl, hne⟩
    · rintro ⟨x, hx, rfl, hne⟩
      rcases List.mem_append.1 hx with hx | hx
      · exact .inl ⟨x, hx, rfl, hne⟩
      · exact .inr ⟨by rw [List.mem_singleton.1 hx], hne⟩

/-- Collected texts do not answer a key if and only if none of them has it. -/
theorem get?_ofList_eq_none_iff {texts : List String} {key : String} :
    (ofList texts).get? key = none ↔ ∀ text ∈ texts, (pair? text).map Prod.fst ≠ some key := by
  rw [get?_eq_none]
  constructor
  · intro h text htext hkey
    obtain ⟨⟨k, value⟩, hp, rfl⟩ := Option.map_eq_some_iff.1 hkey
    exact h _ (mem_ofList.2 ⟨text, htext, rfl, trim_ne_empty hp⟩) value ((pair?_trim text).trans hp)
  · intro h t ht value hp
    obtain ⟨text, htext, rfl, -⟩ := mem_ofList.1 ht
    rw [pair?_trim] at hp
    exact h text htext (congrArg (Option.map Prod.fst) hp)

/-- Texts of which those with a key agree on its value. -/
theorem get?_ofList_eq {texts : List String} {key value text : String} (htext : text ∈ texts)
    (hp : pair? text = some (key, value))
    (hagree : ∀ x ∈ texts, ∀ v, pair? x = some (key, v) → v = value) :
    (ofList texts).get? key = some value := by
  cases hget : (ofList texts).get? key with
  | none =>
    have hmem : Text.trim text ∈ ofList texts := mem_ofList.2 ⟨text, htext, rfl, trim_ne_empty hp⟩
    exact absurd (by rw [pair?_trim, hp]) (get?_eq_none.1 hget _ hmem value)
  | some v =>
    obtain ⟨t, ht, htp⟩ := exists_of_get? hget
    obtain ⟨x, hx, rfl, -⟩ := mem_ofList.1 ht
    rw [pair?_trim] at htp
    rw [hagree x hx v htp]

theorem get?_ofList_single {text k value : String} (hp : pair? text = some (k, value))
    (key : String) : (ofList [text]).get? key = if k = key then some value else none := by
  rw [← List.nil_append [text], ofList_concat]
  by_cases h : k = key
  · rw [if_pos h, get?_add_self (by rw [hp, h]) rfl]
  · rw [if_neg h, get?_add_of_ne (by simpa [hp] using h)]
    rfl

theorem get?_ofList_pair {a b ka kb va vb : String} (ha : pair? a = some (ka, va))
    (hb : pair? b = some (kb, vb)) (hne : ka ≠ kb) (key : String) :
    (ofList [a, b]).get? key =
      if ka = key then some va else if kb = key then some vb else none := by
  rw [← List.singleton_append, ofList_concat]
  by_cases h : kb = key
  · rw [if_neg (h ▸ hne), if_pos h, get?_add_self (by rw [hb, h])]
    rw [get?_ofList_single ha, if_neg (h ▸ hne)]
  · rw [get?_add_of_ne (by simpa [hb] using h), get?_ofList_single ha, if_neg h]

/-! ### Merging -/

theorem toList_mergedWith (a b : Tags) :
    (a.mergedWith b).toList = a.toList.filter (· ∉ b.toList) ++ b.toList := rfl

/-- The tags merged in answer first. -/
theorem get?_mergedWith (a b : Tags) (key : String) :
    (a.mergedWith b).get? key = (b.get? key).or (a.get? key) := by
  rw [get?_eq, toList_mergedWith, List.filterMap_append, lastValue_append, ← get?_eq]
  cases hb : b.get? key with
  | some value => rfl
  | none =>
    -- a tag of both that is left out has another key
    rw [Option.none_or, Option.none_or, get?_eq]
    exact lastValue_filter fun t _ value hp =>
      decide_eq_true fun ht => get?_eq_none.1 hb t ht value hp

theorem get?_of_isEmpty {s : Tags} (h : s.isEmpty = true) (key : String) : s.get? key = none := by
  rw [get?_eq, List.isEmpty_iff.1 h]
  rfl

/-- The tags of an entry: its own answer first, then those of its transaction. -/
theorem get?_propagate (transaction : Tags) (own? : Option Tags) (key : String) :
    (transaction.propagate own?).get? key =
      (own?.bind (·.get? key)).or (transaction.get? key) := by
  unfold propagate
  cases own? with
  | none => rfl
  | some own =>
    by_cases h : transaction.isEmpty = true
    · simp [h, get?_of_isEmpty h]
    · simp [h, get?_mergedWith]

end Tags

/-! ## Metadata -/

/-- The keys that decide how a transaction is completed. -/
def reservedKeys : List String := ["credit", "debit", "completed", "group", "type"]

/-- The metadata leave the reserved keys alone. -/
def Metadata.IsPlain (m : Metadata) : Prop := ∀ kv ∈ m.toList, shownKey kv.1 ∉ reservedKeys

instance (m : Metadata) : Decidable m.IsPlain := inferInstanceAs (Decidable (∀ _ ∈ _, _))

/-- A key has no value in the tags if and only if no key of metadata is shown as this key. -/
theorem Metadata.get?_tags_eq_none {m : Metadata} {key : String} :
    (metadataTags m).get? key = none ↔ ∀ kv ∈ m.toList, shownKey kv.1 ≠ key := by
  rw [metadataTags, Tags.get?_ofList_eq_none_iff, List.forall_mem_map]
  simp only [fst_pair?, ne_eq, Option.some.injEq]

theorem Metadata.IsPlain.get?_tags {m : Metadata} (hm : m.IsPlain) {key : String}
    (hkey : key ∈ reservedKeys) : (metadataTags m).get? key = none :=
  get?_tags_eq_none.2 fun kv hkv e => hm kv hkv (e ▸ hkey)

/-- A value of metadata is read back, without the blanks around it, unless another key is shown as
the same key. -/
theorem Metadata.get?_tags {m : Metadata} {key value : String} (hvalue : m.value? key = some value)
    (hkey : ':' ∉ key.toList) (htrim : Text.trim key = key)
    (halone : ∀ kv ∈ m.toList, shownKey kv.1 = key → kv.1 = key) :
    (metadataTags m).get? key = some (Text.trim value) := by
  obtain ⟨⟨k, v⟩, hkv, rfl⟩ := Option.map_eq_some_iff.1 hvalue
  obtain ⟨hmem, hk⟩ := Keyed.get?_eq_some_iff.1 hkv
  obtain rfl : k = key := hk
  have hpair : ∀ w, pair? (k ++ ":" ++ w) = some (k, Text.trim w) := fun w =>
    pair?_append w (by simp) hkey htrim
  refine Tags.get?_ofList_eq (List.mem_map_of_mem hmem) (hpair v) fun x hx w hw => ?_
  obtain ⟨⟨k', v'⟩, hmem', rfl⟩ := List.mem_map.1 hx
  have hshown : shownKey k' = k := by
    have h := fst_pair? k' v'
    rw [hw] at h
    exact (Option.some.inj h).symm
  obtain rfl : k' = k := halone _ hmem' hshown
  obtain rfl : v' = v := congrArg Prod.snd (Keyed.eq_of_key_eq hmem' hmem rfl)
  rw [hpair] at hw
  exact (Prod.mk.inj (Option.some.inj hw)).2.symm

end LayeredLedger
