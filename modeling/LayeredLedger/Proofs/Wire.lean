import LayeredLedger.Proofs.TagLookup
import LayeredLedger.Tag.Wire

/-!
# To the wire and back

Writing escapes what reading cuts at, so the items that are read are the tags that were written,
character by character. Adding them one by one changes nothing, since tags have no blanks at their
ends and none occurs twice.

* `wireItems_escapeChars`: an escaped text is read as it was;
* `wireItems_wireChars`, `wireItems_wireChars_append`: the items of written tags;
* `Tags.toList_ofList`, `Tags.toList_foldl_add`: what becomes of texts that are collected;
* `Tags.foldl_add_wireItems`: written tags are added tag by tag;
* `Tags.ofWire_toWire`: written tags are read as they were;
* **`wire_round_trip`**: all tags survive the wire.
-/

namespace LayeredLedger

/-! ## Items -/

/-- An escaped text is read as it was, in front of the first item of what follows. -/
theorem wireItems_escapeChars (t rest : List Char) {item : List Char} {items : List (List Char)}
    (h : wireItems rest = item :: items) :
    wireItems (escapeChars t ++ rest) = (t ++ item) :: items := by
  induction t with
  | nil => exact h
  | cons c t ih =>
    have hcons : escapeChars (c :: t) =
        (if c = ',' ∨ c = '\\' then ['\\', c] else [c]) ++ escapeChars t := List.flatMap_cons
    rw [hcons]
    by_cases hc : c = ',' ∨ c = '\\'
    · rw [if_pos hc]
      change wireItems ('\\' :: c :: (escapeChars t ++ rest)) = _
      rw [wireItems, ih]
      rfl
    · obtain ⟨hcomma, hbackslash⟩ := not_or.1 hc
      rw [if_neg hc]
      change wireItems (c :: (escapeChars t ++ rest)) = _
      rw [wireItems.eq_5 c _ (fun e _ => hbackslash e) (fun _ _ e _ => hbackslash e) hcomma, ih]
      rfl

/-- Texts that are escaped, with commas between them, are read as they were, and what follows after
one more comma, or nothing, is read by itself. -/
theorem wireItems_intercalate (t : List Char) (ts : List (List Char)) {rest : List Char}
    {items : List (List Char)} (h : wireItems rest = [] :: items) :
    wireItems ([','].intercalate ((t :: ts).map escapeChars) ++ rest) = t :: ts ++ items := by
  induction ts generalizing t with
  | nil =>
    have h := wireItems_escapeChars t rest h
    simpa using h
  | cons u ts ih =>
    have hrest : wireItems (',' :: ([','].intercalate ((u :: ts).map escapeChars) ++ rest)) =
        [] :: (u :: ts ++ items) := by
      rw [wireItems, ih u]
    have h := wireItems_escapeChars t _ hrest
    rw [List.append_nil] at h
    simpa [List.intercalate_cons_cons] using h

/-- The items of written tags are the tags. Without tags there is one item, which is empty. -/
theorem wireItems_wireChars (s : Tags) :
    wireItems s.wireChars = if s.isEmpty then [[]] else s.toList.map String.toList := by
  unfold Tags.wireChars Tags.isEmpty
  cases s.toList with
  | nil => rfl
  | cons t ts =>
    have hnil : wireItems [] = [[]] := rfl
    have h := wireItems_intercalate t.toList (ts.map String.toList) hnil
    simpa [Function.comp_def] using h

/-- What follows written tags after a comma is read by itself. -/
theorem wireItems_wireChars_append (s : Tags) (rest : List Char) :
    wireItems (s.wireChars ++ ',' :: rest) = wireItems s.wireChars ++ wireItems rest := by
  have hrest : wireItems (',' :: rest) = [] :: wireItems rest := by rw [wireItems]
  rw [wireItems_wireChars]
  unfold Tags.wireChars Tags.isEmpty
  cases s.toList with
  | nil => exact hrest
  | cons t ts =>
    have h := wireItems_intercalate t.toList (ts.map String.toList) hrest
    simpa [Function.comp_def] using h

/-! ## Collecting -/

namespace Tags

/-- Of texts that are collected the blanks at the ends go, then empty texts, then all but the
first of each. -/
theorem toList_ofList (texts : List String) :
    (ofList texts).toList = ((texts.map Text.trim).filter (· ≠ "")).eraseDups := by
  induction texts using List.reverseRecOn with
  | nil => rfl
  | append_singleton texts text ih =>
    rw [ofList_concat, List.map_append, List.filter_append, List.eraseDups_append, ← ih]
    by_cases hempty : Text.trim text = ""
    · rw [add, dif_neg fun h => h.1 hempty]
      simp [hempty]
    have hsingle : ([text].map Text.trim).filter (· ≠ "") = [Text.trim text] := by simp [hempty]
    have hmem : Text.trim text ∈ (texts.map Text.trim).filter (· ≠ "") ↔
        Text.trim text ∈ ofList texts := by
      rw [← mem_toList, ih, List.mem_eraseDups]
    rw [hsingle]
    generalize (texts.map Text.trim).filter (· ≠ "") = kept at hmem
    by_cases h : Text.trim text ∈ ofList texts
    · rw [toList_add_of_mem h]
      simp [List.removeAll, hmem.2 h]
    · rw [toList_add hempty h]
      simp [List.removeAll, mt hmem.1 h, List.eraseDups_cons]

/-- Of texts that are tags and differ from each other those are added that are not there yet. -/
theorem toList_foldl_add {s : Tags} {texts : List String} (htag : ∀ t ∈ texts, IsTag t)
    (hnodup : texts.Nodup) :
    (texts.foldl add s).toList = s.toList ++ texts.filter (· ∉ s.toList) := by
  induction texts generalizing s with
  | nil => exact (List.append_nil _).symm
  | cons t texts ih =>
    obtain ⟨hne, htrim⟩ := htag t List.mem_cons_self
    obtain ⟨hrest, hnodup⟩ := List.nodup_cons.1 hnodup
    have ih := fun s => ih (s := s) (fun x hx => htag x (List.mem_cons_of_mem t hx)) hnodup
    rw [List.foldl_cons, ih]
    by_cases h : t ∈ s
    · rw [toList_add_of_mem (htrim.symm ▸ h), List.filter_cons_of_neg (by simpa using h)]
    · have hadd : (s.add t).toList = s.toList ++ [t] := by
        rw [toList_add (htrim.symm ▸ hne) (htrim.symm ▸ h), htrim]
      have hsame : texts.filter (· ∉ s.toList ++ [t]) = texts.filter (· ∉ s.toList) :=
        List.filter_congr fun x hx => by
          have hx : x ≠ t := fun e => hrest (e ▸ hx)
          simp [hx]
      rw [hadd, hsame, List.filter_cons_of_pos (by simpa using h), List.append_assoc,
        List.singleton_append]

/-- Tags that are collected once more stay as they are. -/
@[simp] theorem ofList_toList (s : Tags) : ofList s.toList = s := by
  apply ext_toList
  rw [ofList, toList_foldl_add s.isTag s.nodup]
  exact List.filter_eq_self.2 fun t _ => by simp

/-- An empty text adds nothing. -/
theorem add_empty (s : Tags) : s.add "" = s := by
  rw [add, dif_neg fun h => h.1 rfl]

/-- The items of written tags add the tags, also where there are none. -/
theorem foldl_add_wireItems (s written : Tags) :
    ((wireItems written.wireChars).map String.ofList).foldl add s =
      written.toList.foldl add s := by
  rw [wireItems_wireChars]
  by_cases h : written.isEmpty = true
  · rw [if_pos h, List.isEmpty_iff.1 h]
    exact add_empty s
  · have hid : written.toList.map (String.ofList ∘ String.toList) = written.toList :=
      List.map_id'' (fun t => String.ofList_toList) written.toList
    rw [if_neg h, List.map_map, hid]

/-- Written tags are read as they were. -/
@[simp] theorem ofWire_toWire (s : Tags) : ofWire s.toWire = s := by
  rw [ofWire, toWire, String.toList_ofList, ofList, foldl_add_wireItems]
  exact s.ofList_toList

end Tags

/-- All tags are non-empty, trimmed and distinct and survive the wire, whatever is in them; of
texts that are collected the first of each is kept, trimmed, if it is not empty; and what any text
is read as is written so that it is read as the same. -/
theorem wire_round_trip :
    (∀ s : Tags, (∀ t ∈ s, t ≠ "" ∧ Text.trim t = t) ∧ s.toList.Nodup ∧
      Tags.ofWire s.toWire = s ∧ Tags.ofList s.toList = s) ∧
    (∀ texts, (Tags.ofList texts).toList =
      ((texts.map Text.trim).filter (· ≠ "")).eraseDups) ∧
    ∀ text, Tags.ofWire (Tags.ofWire text).toWire = Tags.ofWire text :=
  ⟨fun s => ⟨s.isTag, s.nodup, s.ofWire_toWire, s.ofList_toList⟩, Tags.toList_ofList,
    fun text => (Tags.ofWire text).ofWire_toWire⟩

/-- Tags with a comma, a backslash at the end and before a comma, a colon, a line break and letters
beyond ASCII. -/
theorem wire_round_trip_escapes :
    let s := Tags.ofList [" a,b ", "c\\", "d\\,e", "k: é\nx", "", "a,b"]
    s.toList = ["a,b", "c\\", "d\\,e", "k: é\nx"] ∧
      s.toWire = "a\\,b,c\\\\,d\\\\\\,e,k: é\nx" ∧ Tags.ofWire s.toWire = s ∧
      Tags.ofWire (Tags.ofWire "x\\,y, ,x\\").toWire = Tags.ofWire "x\\,y, ,x\\" ∧
      "c\\" ≠ "" ∧ Text.trim "c\\" = "c\\" :=
  let s := Tags.ofList [" a,b ", "c\\", "d\\,e", "k: é\nx", "", "a,b"]
  have hmem : "c\\" ∈ s := by decide +kernel
  ⟨(wire_round_trip.2.1 _).trans (by decide +kernel), by decide +kernel,
    (wire_round_trip.1 s).2.2.1, wire_round_trip.2.2 _, (wire_round_trip.1 s).1 _ hmem⟩

end LayeredLedger
