import LayeredLedger.Proofs.Wire

/-!
# Repeated items on the wire

Reading a text drops every item that repeats an earlier one, so a key is answered by the last of
its items that is new. That is the last of them all as long as no item comes back after another
value of its key. Tags written one after the other are read as those of the first and the new ones
of the second, whereas merging keeps the tags of both where the second has them.

* `wireTexts`, `lastOnWire`: the items of a text, and what the last one with a key says;
* `LastNew`, `lastNew_concat_of_old`, `lastNew_concat_of_new`: the last new item with a key, and
  one item more;
* `lastNew_of_agree`, `lastValue_of_agree`: items after which the value of a key stays the same;
* `Tags.get?_ofList_iff`: what collected texts answer;
* `Tags.without`, `Tags.ofWire_append`: tags written one after the other;
* **`get?_ofWire_iff`**: what is read from a text;
* `repeated_item_is_dropped`: an item that comes back does not override.
-/

namespace LayeredLedger

/-! ## Items -/

/-- The items of a text, without the blanks around them. -/
def wireTexts (text : String) : List String :=
  (wireItems text.toList).map fun item => Text.trim (String.ofList item)

/-- What the last item with a key says, repeated or not. -/
def lastOnWire (text key : String) : Option String :=
  lastValue key ((wireTexts text).filterMap pair?)

/-- Of the texts with a key the last one that does not repeat an earlier text has the value. -/
def LastNew (key value : String) (texts : List String) : Prop :=
  ∃ front t back, texts = front ++ t :: back ∧ t ∉ front ∧ pair? t = some (key, value) ∧
    ∀ u ∈ back, ∀ w, pair? u = some (key, w) → u ∈ front ++ [t]

section LastNew

variable {key value : String} {texts : List String}

theorem lastNew_nil : ¬LastNew key value [] := by
  rintro ⟨front, t, back, h, -⟩
  simp at h

theorem concat_eq_append_cons_concat {front back : List String} {t x u : String} :
    texts ++ [t] = front ++ x :: back.concat u ↔ texts = front ++ x :: back ∧ t = u := by
  rw [List.concat_eq_append, ← List.cons_append, ← List.append_assoc, List.append_singleton_inj]

/-- A text more that repeats an earlier one, or has another key or none, changes nothing. -/
theorem lastNew_concat_of_old {t : String}
    (h : t ∈ texts ∨ (pair? t).map Prod.fst ≠ some key) :
    LastNew key value (texts ++ [t]) ↔ LastNew key value texts := by
  constructor
  · rintro ⟨front, x, back, htexts, hnew, hx, hback⟩
    rcases List.eq_nil_or_concat back with rfl | ⟨back, u, rfl⟩
    · obtain ⟨rfl, rfl⟩ := List.append_singleton_inj.1 htexts
      rcases h with h | h
      · exact absurd h hnew
      · simp [hx] at h
    · obtain ⟨rfl, rfl⟩ := concat_eq_append_cons_concat.1 htexts
      exact ⟨front, x, back, rfl, hnew, hx, fun u hu => hback u (by simp [hu])⟩
  · rintro ⟨front, x, back, rfl, hnew, hx, hback⟩
    refine ⟨front, x, back ++ [t], by simp, hnew, hx, fun u hu w hw => ?_⟩
    rcases List.mem_append.1 hu with hu | hu
    · exact hback u hu w hw
    obtain rfl := List.mem_singleton.1 hu
    rcases h with h | h
    · rw [← List.singleton_append, ← List.append_assoc] at h
      exact (List.mem_append.1 h).elim id fun h => hback u h w hw
    · simp [hw] at h

/-- A new text with the key has the value. -/
theorem lastNew_concat_of_new {t v : String} (h : t ∉ texts) (ht : pair? t = some (key, v)) :
    LastNew key value (texts ++ [t]) ↔ v = value := by
  constructor
  · rintro ⟨front, x, back, htexts, -, hx, hback⟩
    rcases List.eq_nil_or_concat back with rfl | ⟨back, u, rfl⟩
    · obtain ⟨-, rfl⟩ := List.append_singleton_inj.1 htexts
      exact congrArg Prod.snd (Option.some.inj (ht.symm.trans hx))
    · obtain ⟨rfl, rfl⟩ := concat_eq_append_cons_concat.1 htexts
      refine absurd ?_ h
      rw [← List.singleton_append, ← List.append_assoc]
      exact List.mem_append_left _ (hback t (by simp) v ht)
  · rintro rfl
    exact ⟨texts, t, [], rfl, h, ht, nofun⟩

variable {front back : List String} {t : String}

/-- A new text after which the value of its key stays the same has the value, even if it comes
back or the value is said in other words. -/
theorem lastNew_of_agree (hnew : t ∉ front) (ht : pair? t = some (key, value))
    (hagree : ∀ u ∈ back, ∀ w, pair? u = some (key, w) → w = value) :
    LastNew key value (front ++ t :: back) := by
  induction back using List.reverseRecOn with
  | nil => exact (lastNew_concat_of_new hnew ht).2 rfl
  | append_singleton back u ih =>
    have ih := ih fun x hx => hagree x (List.mem_append_left _ hx)
    rw [← List.cons_append, ← List.append_assoc]
    by_cases hkey : (pair? u).map Prod.fst = some key
    · obtain ⟨⟨k, w⟩, hu, rfl⟩ := Option.map_eq_some_iff.1 hkey
      by_cases hmem : u ∈ front ++ t :: back
      · exact (lastNew_concat_of_old (.inl hmem)).2 ih
      · exact (lastNew_concat_of_new hmem hu).2 (hagree u (by simp) w hu)
    · exact (lastNew_concat_of_old (.inr hkey)).2 ih

/-- The last value is that of any text after which it stays the same. -/
theorem lastValue_of_agree (ht : pair? t = some (key, value))
    (hagree : ∀ u ∈ back, ∀ w, pair? u = some (key, w) → w = value) :
    lastValue key ((front ++ t :: back).filterMap pair?) = some value := by
  have hself : lastValue key ([t].filterMap pair?) = some value := by simp [ht, lastValue]
  rw [← List.singleton_append, List.filterMap_append, List.filterMap_append, lastValue_append,
    lastValue_append, hself, Option.or_some]
  cases hback : lastValue key (back.filterMap pair?) with
  | none => rfl
  | some w =>
    obtain ⟨u, hu, hpair⟩ := exists_of_lastValue hback
    rw [hagree u hu w hpair]
    rfl

end LastNew

/-! ## Collected texts -/

namespace Tags

/-- Collected texts answer a key as the last new text does that has it. -/
theorem get?_ofList_iff {texts : List String} {key value : String} :
    (ofList texts).get? key = some value ↔ LastNew key value (texts.map Text.trim) := by
  induction texts using List.reverseRecOn with
  | nil => exact ⟨nofun, fun h => absurd h lastNew_nil⟩
  | append_singleton texts text ih =>
    rw [ofList_concat, List.map_append, List.map_singleton]
    by_cases hkey : (pair? text).map Prod.fst = some key
    · obtain ⟨⟨k, v⟩, hp, rfl⟩ := Option.map_eq_some_iff.1 hkey
      have hmem : Text.trim text ∈ ofList texts ↔ Text.trim text ∈ texts.map Text.trim := by
        simp [mem_ofList, trim_ne_empty hp]
      by_cases h : Text.trim text ∈ texts.map Text.trim
      · rw [toList_add_of_mem (hmem.2 h), ih, lastNew_concat_of_old (.inl h)]
      · rw [get?_add_self_of_mem hp fun hold => absurd (hmem.1 hold) h,
          lastNew_concat_of_new h ((pair?_trim text).trans hp), Option.some_inj]
    · rw [get?_add_of_ne hkey, ih, lastNew_concat_of_old (.inr (by rwa [pair?_trim]))]

/-! ## One after the other -/

/-- The tags that are not among others. -/
def without (s other : Tags) : Tags where
  toList := s.toList.filter (· ∉ other.toList)
  isTag t ht := s.isTag t (List.mem_filter.1 ht).1
  nodup := s.nodup.filter _

theorem mem_without {s other : Tags} {t : String} : t ∈ s.without other ↔ t ∈ s ∧ t ∉ other := by
  change t ∈ s.toList.filter (· ∉ other.toList) ↔ _
  simp

/-- Of tags that are written one after the other those of the second that the first has not are
read behind those of the first. -/
theorem ofWire_append (a b : Tags) :
    ofWire (a.toWire ++ "," ++ b.toWire) = a.mergedWith (b.without a) := by
  have hchars : (a.toWire ++ "," ++ b.toWire).toList = a.wireChars ++ ',' :: b.wireChars := by
    simp [toWire]
  have hfirst : (((wireItems a.wireChars).map String.ofList).foldl add ∅) = a := by
    rw [foldl_add_wireItems]
    exact a.ofList_toList
  -- of the first nothing goes, since only new tags are merged in
  have hkeep : a.toList.filter (· ∉ (b.without a).toList) = a.toList :=
    List.filter_eq_self.2 fun t ht => by
      have h : t ∉ b.without a := fun h => (mem_without.1 h).2 ht
      simpa using h
  apply ext_toList
  rw [ofWire, hchars, wireItems_wireChars_append, List.map_append, ofList, List.foldl_append,
    hfirst, foldl_add_wireItems, toList_foldl_add b.isTag b.nodup, toList_mergedWith, hkeep]
  rfl

/-- Tags that do not have a tag of the other ones under a key answer it as they did. -/
theorem get?_without {a b : Tags} {key : String}
    (h : ∀ t ∈ b, ∀ value, pair? t = some (key, value) → t ∉ a) :
    (b.without a).get? key = b.get? key :=
  lastValue_filter fun t ht value hp => decide_eq_true (h t ht value hp)

end Tags

/-! ## The main result -/

/-- **Later tags override earlier ones, as long as they are new.** What is read from a text answers
a key as the last item does that has the key and does not repeat an earlier item, and not at all if
no item has it. That is what the last item of all with the key says if its value is the same from
the first copy of some item on.

Tags that are written one after the other are read so that the tags of the second that the first
has not answer before the first. Merging gives the same where no tag with the key is in both. -/
theorem get?_ofWire_iff (text key value : String) (a b : Tags) :
    ((Tags.ofWire text).get? key = some value ↔ LastNew key value (wireTexts text)) ∧
    ((Tags.ofWire text).get? key = none ↔
      ∀ t ∈ wireTexts text, (pair? t).map Prod.fst ≠ some key) ∧
    (∀ front t back, wireTexts text = front ++ t :: back → t ∉ front →
      pair? t = some (key, value) → (∀ u ∈ back, ∀ w, pair? u = some (key, w) → w = value) →
      (Tags.ofWire text).get? key = some value ∧ lastOnWire text key = some value) ∧
    (Tags.ofWire (a.toWire ++ "," ++ b.toWire)).get? key =
      ((b.without a).get? key).or (a.get? key) ∧
    ((∀ t ∈ b, ∀ w, pair? t = some (key, w) → t ∉ a) →
      (Tags.ofWire (a.toWire ++ "," ++ b.toWire)).get? key = (a.mergedWith b).get? key) := by
  have htexts : ((wireItems text.toList).map String.ofList).map Text.trim = wireTexts text :=
    List.map_map
  have hiff : (Tags.ofWire text).get? key = some value ↔ LastNew key value (wireTexts text) := by
    rw [Tags.ofWire, Tags.get?_ofList_iff, htexts]
  have hjoin : (Tags.ofWire (a.toWire ++ "," ++ b.toWire)).get? key =
      ((b.without a).get? key).or (a.get? key) := by
    rw [Tags.ofWire_append, Tags.get?_mergedWith]
  refine ⟨hiff, ?_, fun front t back hsplit hnew ht hagree => ⟨?_, ?_⟩, hjoin, fun hapart => ?_⟩
  · rw [Tags.ofWire, Tags.get?_ofList_eq_none_iff, ← htexts]
    simp only [List.forall_mem_map, pair?_trim]
  · rw [hiff, hsplit]
    exact lastNew_of_agree hnew ht hagree
  · rw [lastOnWire, hsplit]
    exact lastValue_of_agree ht hagree
  · rw [hjoin, Tags.get?_without hapart, Tags.get?_mergedWith]

/-- A value that is said three times, once after a blank, and a tag of both under another key. -/
theorem get?_ofWire_iff_said_again :
    let text := "k:1, k:2,x:y,k:2,k : 2"
    let a := Tags.ofList ["k:1", "x:y"]
    let b := Tags.ofList ["k:2", "x:y"]
    wireTexts text = ["k:1"] ++ "k:2" :: ["x:y", "k:2", "k : 2"] ∧ "k:2" ∉ ["k:1"] ∧
      pair? "k:2" = some ("k", "2") ∧
      (∀ u ∈ ["x:y", "k:2", "k : 2"], ∀ w, pair? u = some ("k", w) → w = "2") ∧
      (Tags.ofWire text).get? "k" = some "2" ∧ lastOnWire text "k" = some "2" ∧
      (∀ t ∈ b, ∀ w, pair? t = some ("k", w) → t ∉ a) ∧
      (Tags.ofWire (a.toWire ++ "," ++ b.toWire)).get? "k" = (a.mergedWith b).get? "k" :=
  let text := "k:1, k:2,x:y,k:2,k : 2"
  let a := Tags.ofList ["k:1", "x:y"]
  let b := Tags.ofList ["k:2", "x:y"]
  have hsplit : wireTexts text = ["k:1"] ++ "k:2" :: ["x:y", "k:2", "k : 2"] := by decide +kernel
  have hpair : pair? "k:2" = some ("k", "2") := by decide +kernel
  have hagree : ∀ u ∈ ["x:y", "k:2", "k : 2"], ∀ w, pair? u = some ("k", w) → w = "2" := by
    have h : ∀ u ∈ ["x:y", "k:2", "k : 2"], (pair? u).all fun p => p.1 = "k" → p.2 = "2" := by
      decide +kernel
    intro u hu w hw
    simpa [hw] using h u hu
  have hapart : ∀ t ∈ b, ∀ w, pair? t = some ("k", w) → t ∉ a := by
    have h : ∀ t ∈ b.toList, (pair? t).all fun p => p.1 = "k" → t ∉ a := by decide +kernel
    intro t ht w hw
    simpa [hw] using h t ht
  have hmain := get?_ofWire_iff text "k" "2" a b
  have hsame := hmain.2.2.1 ["k:1"] "k:2" _ hsplit (by decide) hpair hagree
  ⟨hsplit, by decide, hpair, hagree, hsame.1, hsame.2, hapart, hmain.2.2.2.2 hapart⟩

/-- An item that comes back after another value of its key does not override that value, neither
in one text nor in tags that are written one after the other. -/
theorem repeated_item_is_dropped :
    (¬∀ text key, (Tags.ofWire text).get? key = lastOnWire text key) ∧
    ¬∀ (a b : Tags) (key : String),
      (Tags.ofWire (a.toWire ++ "," ++ b.toWire)).get? key = (a.mergedWith b).get? key :=
  ⟨fun h => absurd (h "k:1,k:2,k:1" "k") (by decide +kernel),
    fun h => absurd (h (.ofList ["k:1", "k:2"]) (.ofList ["k:1"]) "k") (by decide +kernel)⟩

end LayeredLedger
