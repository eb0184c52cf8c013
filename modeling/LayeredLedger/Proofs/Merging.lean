import LayeredLedger.Proofs.TagLookup

/-!
# Merging tags

Tags that are merged in answer every key they have, and the tags before them answer the rest. A
tag of both is kept once, where the tags merged in have it, so a tag that is left out never
answered anything. From this merging is associative, and tags that are handed down through several
levels, from a transaction to a spec and on, do not depend on how the levels are grouped.

* `Tags.hasKey_eq_false_iff`, `Tags.get?_mergedWith_eq_ite`: lookups in merged tags;
* `Tags.mergedWith_assoc`, `Tags.mergedWith_empty`, `Tags.empty_mergedWith`,
  `Tags.mergedWith_self`: the laws of merging;
* `Tags.propagate_some`, `Tags.propagate_none`: handing down is merging;
* `TagLevels`, `TagLevels.tags`: levels of tags that are grouped in some way;
* `TagLevels.propagate_tags`, `Tags.get?_foldl_propagate`: what is handed down through levels;
* **`merging_is_override`**: all of it.
-/

namespace LayeredLedger

namespace Tags

/-! ## Lookups -/

theorem hasKey_eq_false_iff {s : Tags} {key : String} :
    s.hasKey key = false ↔ s.get? key = none := by
  rw [get?_eq, lastValue_eq_none, hasKey, List.any_eq_false]
  simp only [decide_eq_true_eq, pairs, ne_eq]

/-- The tags merged in answer every key that they have. -/
theorem get?_mergedWith_eq_ite (a b : Tags) (key : String) :
    (a.mergedWith b).get? key = if b.hasKey key then b.get? key else a.get? key := by
  rw [get?_mergedWith]
  cases h : b.hasKey key with
  | true =>
    obtain ⟨value, hvalue⟩ : ∃ value, b.get? key = some value :=
      Option.ne_none_iff_exists'.1 fun hnone => by simp [hasKey_eq_false_iff.2 hnone] at h
    rw [hvalue, Option.some_or, if_pos rfl]
  | false =>
    rw [hasKey_eq_false_iff.1 h, Option.none_or]
    rfl

/-! ## Laws -/

theorem mergedWith_assoc (a b c : Tags) :
    (a.mergedWith b).mergedWith c = a.mergedWith (b.mergedWith c) := by
  apply ext_toList
  simp only [toList_mergedWith, List.filter_append, List.filter_filter, List.append_assoc]
  congr 1
  refine List.filter_congr fun t _ => ?_
  by_cases hc : t ∈ c <;> simp [hc]

@[simp] theorem mergedWith_empty (a : Tags) : a.mergedWith ∅ = a := by
  apply ext_toList
  have hnil : (∅ : Tags).toList = [] := rfl
  rw [toList_mergedWith, hnil, List.append_nil]
  exact List.filter_eq_self.2 fun t _ => by simp

@[simp] theorem empty_mergedWith (a : Tags) : (∅ : Tags).mergedWith a = a :=
  ext_toList (List.nil_append a.toList)

@[simp] theorem mergedWith_self (a : Tags) : a.mergedWith a = a := by
  apply ext_toList
  have hnil : a.toList.filter (· ∉ a.toList) = [] :=
    List.filter_eq_nil_iff.2 fun t ht => by simpa using ht
  rw [toList_mergedWith, hnil, List.nil_append]

/-! ## Handing down -/

/-- The tags of a spec are merged in, also where a transaction without tags is passed over. -/
theorem propagate_some (a own : Tags) : a.propagate (some own) = a.mergedWith own := by
  unfold propagate
  by_cases h : a.isEmpty = true
  · obtain rfl : a = ∅ := ext_toList (List.isEmpty_iff.1 h)
    exact (empty_mergedWith own).symm
  · exact if_neg h

@[simp] theorem propagate_none (a : Tags) : a.propagate none = a := rfl

/-- Tags that are handed down through levels, one level after the other, answer a key as the last
level does that has it. -/
theorem get?_foldl_propagate (a : Tags) (levels : List (Option Tags)) (key : String) :
    (levels.foldl propagate a).get? key =
      (levels.reverse.findSome? fun own? => own?.bind (·.get? key)).or (a.get? key) := by
  induction levels generalizing a with
  | nil => rfl
  | cons own? levels ih =>
    rw [List.foldl_cons, ih, get?_propagate, List.reverse_cons, List.findSome?_append,
      Option.or_assoc, List.findSome?_singleton]

end Tags

/-! ## Levels -/

/-- Levels of tags in order, the outermost first, in groups that are put together one by one. -/
inductive TagLevels where
  | one (own? : Option Tags)
  | join (outer inner : TagLevels)

namespace TagLevels

def toList : TagLevels → List (Option Tags)
  | one own? => [own?]
  | join outer inner => outer.toList ++ inner.toList

/-- The tags of a group: what is handed down from its first level to its last. -/
def tags : TagLevels → Tags
  | one own? => (∅ : Tags).propagate own?
  | join outer inner => outer.tags.propagate (some inner.tags)

/-- A group hands down what its levels do one by one, whatever groups are in it. -/
theorem propagate_tags (a : Tags) (levels : TagLevels) :
    a.propagate (some levels.tags) = levels.toList.foldl Tags.propagate a := by
  induction levels generalizing a with
  | one own? =>
    cases own? with
    | none => rw [tags, Tags.propagate_none, Tags.propagate_some, Tags.mergedWith_empty]; rfl
    | some own => rw [tags, Tags.propagate_some ∅, Tags.empty_mergedWith]; rfl
  | join outer inner ihouter ihinner =>
    rw [toList, List.foldl_append, ← ihouter, ← ihinner, tags]
    simp only [Tags.propagate_some, Tags.mergedWith_assoc]

end TagLevels

/-! ## The main result -/

/-- **Merging overrides.** Merged tags answer a key as the tags merged in do if they have it, and
as the others do if not, and they are all tags of both, each once. Merging is associative, no tags
at all are its unit, and tags merged with themselves stay as they are.

The tags of an entry are those of its transaction with those of its spec merged in, and those of
the transaction alone if the spec has none. So if tags are handed down through levels it does not
matter which levels are put together first: a key is answered by the last level that has it. -/
theorem merging_is_override (a b c : Tags) :
    (∀ key, (a.mergedWith b).get? key = if b.hasKey key then b.get? key else a.get? key) ∧
    (∀ t, t ∈ a.mergedWith b ↔ t ∈ a ∨ t ∈ b) ∧ (a.mergedWith b).toList.Nodup ∧
    (a.mergedWith b).mergedWith c = a.mergedWith (b.mergedWith c) ∧
    a.mergedWith ∅ = a ∧ (∅ : Tags).mergedWith a = a ∧ a.mergedWith a = a ∧
    a.propagate (some b) = a.mergedWith b ∧ a.propagate none = a ∧
    (∀ levels : TagLevels,
      a.propagate (some levels.tags) = levels.toList.foldl Tags.propagate a) ∧
    ∀ (levels : TagLevels) (key : String), (a.propagate (some levels.tags)).get? key =
      (levels.toList.reverse.findSome? fun own? => own?.bind (·.get? key)).or (a.get? key) := by
  refine ⟨a.get?_mergedWith_eq_ite b, fun t => Tags.mem_mergedWith, (a.mergedWith b).nodup,
    a.mergedWith_assoc b c, a.mergedWith_empty, a.empty_mergedWith, a.mergedWith_self,
    a.propagate_some b, a.propagate_none, TagLevels.propagate_tags a, fun levels key => ?_⟩
  rw [levels.propagate_tags, Tags.get?_foldl_propagate]

/-- A tag of both stands where the tags merged in have it, behind its rival. -/
example : ((Tags.ofList ["k:1", "k:2"]).mergedWith (.ofList ["k:1"])).toList = ["k:2", "k:1"] := by
  decide +kernel

end LayeredLedger
