/-!
# Lists in order of a key

A `Keyed key` holds values in strictly ascending order of `key`, so no two of them share a key.
Charts, currency registries, metadata and layer totals are kept this way, and their order is the
order in which they are read out.

* `insertBy`, `Keyed`, `Keyed.insert`, `Keyed.get?`, `Keyed.ofList`;
* `mem_insertBy`: an insertion replaces the value with the same key and keeps all others;
* **`Keyed.get?_insert`**: the last value inserted under a key is the one found there.
-/

namespace LayeredLedger

universe u v

section Data

variable {α : Type u} {κ : Type v} [LT κ]

/-- Puts a value at its place by key, over the value with the same key if there is one. -/
def insertBy [DecidableLT κ] (key : α → κ) (a : α) : List α → List α
  | [] => [a]
  | b :: l =>
    if key a < key b then a :: b :: l
    else if key b < key a then b :: insertBy key a l
    else a :: l

/-- Values in strictly ascending order of their key. -/
structure Keyed (key : α → κ) where
  /-- The values, lowest key first. -/
  toList : List α
  ascending : toList.Pairwise fun a b => key a < key b

end Data

/-! ## Insertion into a list -/

section Order

variable {κ : Type v} [LT κ] [LE κ] [Std.LawfulOrderLT κ]

theorem eq_of_not_key_lt [Std.IsLinearOrder κ] {x y : κ} (h : ¬x < y) (h' : ¬y < x) : x = y :=
  Std.le_antisymm (Std.not_lt.1 h') (Std.not_lt.1 h)

theorem ne_of_key_lt {x y : κ} (h : x < y) : x ≠ y := fun e => Std.lt_irrefl (e ▸ h)

/-- In a list in order of a key, what has a lower key stands before. -/
theorem mem_before_of_key_lt [Std.IsLinearOrder κ] {α : Type u} {key : α → κ}
    {before after : List α} {a b : α} (h : (before ++ a :: after).Pairwise fun x y => key x < key y)
    (hb : b ∈ before ++ a :: after) (hlt : key b < key a) : b ∈ before := by
  have hafter := (List.pairwise_cons.1 (List.pairwise_append.1 h).2.1).1
  rcases List.mem_append.1 hb with hb | hb
  · exact hb
  rcases List.mem_cons.1 hb with rfl | hb
  · exact absurd hlt Std.lt_irrefl
  · exact absurd (Std.lt_trans hlt (hafter b hb)) Std.lt_irrefl

end Order

section Insert

variable {α : Type u} {κ : Type v} [LT κ] [DecidableLT κ] {key : α → κ}

theorem mem_of_mem_insertBy {a x : α} {l : List α} (h : x ∈ insertBy key a l) :
    x = a ∨ x ∈ l := by
  induction l with
  | nil => simpa [insertBy] using h
  | cons b l ih =>
    rw [insertBy] at h
    split at h
    · simpa using h
    split at h
    · rcases List.mem_cons.1 h with h | h
      · simp [h]
      · rcases ih h with h | h <;> simp [h]
    · rcases List.mem_cons.1 h with h | h <;> simp [h]

/-- A map that keeps keys keeps places. -/
theorem map_insertBy {β : Type u} {key' : β → κ} {f : α → β} (hf : ∀ x, key' (f x) = key x) (a : α)
    (l : List α) : (insertBy key a l).map f = insertBy key' (f a) (l.map f) := by
  induction l with
  | nil => rfl
  | cons b l ih =>
    simp only [insertBy, List.map_cons, hf, ← ih]
    split
    · rfl
    split <;> rfl

/-- A relation among the values holds after an insertion if the new value keeps to it. -/
theorem pairwise_insertBy_of {R : α → α → Prop} {a : α} {l : List α} (h : l.Pairwise R)
    (ha : ∀ b ∈ l, R a b ∧ R b a) : (insertBy key a l).Pairwise R := by
  induction l with
  | nil => simp [insertBy]
  | cons b l ih =>
    obtain ⟨hb, hl⟩ := List.pairwise_cons.1 h
    have hal : ∀ x ∈ l, R a x ∧ R x a := fun x hx => ha x (List.mem_cons_of_mem _ hx)
    rw [insertBy]
    split
    · exact List.pairwise_cons.2 ⟨fun x hx => (ha x hx).1, h⟩
    split
    · refine List.pairwise_cons.2 ⟨fun x hx => ?_, ih hl hal⟩
      rcases mem_of_mem_insertBy hx with rfl | hx
      · exact (ha b (by simp)).2
      · exact hb x hx
    · exact List.pairwise_cons.2 ⟨fun x hx => (hal x hx).1, hl⟩

variable [LE κ] [Std.IsLinearOrder κ] [Std.LawfulOrderLT κ]

theorem pairwise_insertBy (a : α) {l : List α} (h : l.Pairwise fun a b => key a < key b) :
    (insertBy key a l).Pairwise fun a b => key a < key b := by
  induction l with
  | nil => simp [insertBy]
  | cons b l ih =>
    obtain ⟨hb, hl⟩ := List.pairwise_cons.1 h
    rw [insertBy]
    split
    · rename_i hab
      refine List.pairwise_cons.2 ⟨fun x hx => ?_, h⟩
      rcases List.mem_cons.1 hx with rfl | hx
      · exact hab
      · exact Std.lt_trans hab (hb x hx)
    split
    · rename_i hba
      refine List.pairwise_cons.2 ⟨fun x hx => ?_, ih hl⟩
      rcases mem_of_mem_insertBy hx with rfl | hx
      · exact hba
      · exact hb x hx
    · rename_i hab hba
      rw [← eq_of_not_key_lt hab hba] at hb
      exact List.pairwise_cons.2 ⟨hb, hl⟩

/-- The value inserted stands in the list, with every value of another key. -/
theorem mem_insertBy {a x : α} {l : List α} (h : l.Pairwise fun a b => key a < key b) :
    x ∈ insertBy key a l ↔ x = a ∨ x ∈ l ∧ key x ≠ key a := by
  induction l with
  | nil => simp [insertBy]
  | cons b l ih =>
    obtain ⟨hb, hl⟩ := List.pairwise_cons.1 h
    rw [insertBy]
    split
    · rename_i hab
      have hne : ∀ y ∈ b :: l, key y ≠ key a := fun y hy => by
        rcases List.mem_cons.1 hy with rfl | hy
        · exact (ne_of_key_lt hab).symm
        · exact (ne_of_key_lt (Std.lt_trans hab (hb y hy))).symm
      rw [List.mem_cons]
      exact or_congr_right ⟨fun hx => ⟨hx, hne x hx⟩, And.left⟩
    split
    · rename_i hba
      rw [List.mem_cons, ih hl, List.mem_cons]
      constructor
      · rintro (rfl | rfl | ⟨hx, hne⟩)
        · exact .inr ⟨.inl rfl, ne_of_key_lt hba⟩
        · exact .inl rfl
        · exact .inr ⟨.inr hx, hne⟩
      · rintro (rfl | ⟨rfl | hx, hne⟩)
        · exact .inr (.inl rfl)
        · exact .inl rfl
        · exact .inr (.inr ⟨hx, hne⟩)
    · rename_i hab hba
      have e := eq_of_not_key_lt hab hba
      rw [List.mem_cons, List.mem_cons]
      refine or_congr_right ⟨fun hx => ⟨.inr hx, ?_⟩, fun ⟨hx, hne⟩ => ?_⟩
      · exact e ▸ (ne_of_key_lt (hb x hx)).symm
      · rcases hx with rfl | hx
        · exact absurd e.symm hne
        · exact hx

/-! ## Ordered collections -/

namespace Keyed

def empty : Keyed key := ⟨[], .nil⟩

instance : EmptyCollection (Keyed key) := ⟨empty⟩

/-- Puts a value in, over the value with the same key if there is one. -/
def insert (a : α) (s : Keyed key) : Keyed key :=
  ⟨insertBy key a s.toList, pairwise_insertBy a s.ascending⟩

def ofList (l : List α) : Keyed key := l.foldl (fun s a => s.insert a) ∅

def get? [DecidableEq κ] (s : Keyed key) (k : κ) : Option α := s.toList.find? (key · = k)

theorem mem_insert {a x : α} {s : Keyed key} :
    x ∈ (s.insert a).toList ↔ x = a ∨ x ∈ s.toList ∧ key x ≠ key a :=
  mem_insertBy s.ascending

/-- A key that tells all values apart keeps all of them. -/
theorem mem_foldl_insert (hkey : ∀ a b, key a = key b → a = b) {x : α} (l : List α)
    (s : Keyed key) : x ∈ (l.foldl (fun s a => s.insert a) s).toList ↔ x ∈ s.toList ∨ x ∈ l := by
  induction l generalizing s with
  | nil => simp
  | cons a l ih =>
    have hinsert : x ∈ (s.insert a).toList ↔ x = a ∨ x ∈ s.toList := by
      rw [mem_insert]
      refine ⟨Or.imp_right And.left, fun h => ?_⟩
      by_cases hx : key x = key a
      · exact .inl (hkey x a hx)
      · exact h.imp_right fun h => ⟨h, hx⟩
    rw [List.foldl_cons, ih, hinsert, List.mem_cons, or_comm (a := x = a), or_assoc]

theorem mem_ofList (hkey : ∀ a b, key a = key b → a = b) {l : List α} {x : α} :
    x ∈ (ofList l : Keyed key).toList ↔ x ∈ l := by
  have hempty : x ∉ (∅ : Keyed key).toList := List.not_mem_nil
  exact (mem_foldl_insert hkey l ∅).trans (or_iff_right hempty)

omit [DecidableLT κ] [Std.IsLinearOrder κ] in
/-- Two values of one collection with the same key are the same value. -/
theorem eq_of_key_eq {s : Keyed key} {a b : α} (ha : a ∈ s.toList) (hb : b ∈ s.toList)
    (h : key a = key b) : a = b := by
  obtain ⟨l, hl⟩ := s
  replace ha : a ∈ l := ha
  replace hb : b ∈ l := hb
  induction l with
  | nil => simp at ha
  | cons c l ih =>
    obtain ⟨hc, hl'⟩ := List.pairwise_cons.1 hl
    rcases List.mem_cons.1 ha with rfl | ha' <;> rcases List.mem_cons.1 hb with rfl | hb'
    · rfl
    · exact absurd h (ne_of_key_lt (hc b hb'))
    · exact absurd h.symm (ne_of_key_lt (hc a ha'))
    · exact ih hl' ha' hb'

omit [DecidableLT κ] [Std.IsLinearOrder κ] in
theorem get?_eq_some_iff [DecidableEq κ] {s : Keyed key} {k : κ} {a : α} :
    s.get? k = some a ↔ a ∈ s.toList ∧ key a = k := by
  constructor
  · intro h
    exact ⟨List.mem_of_find?_eq_some h, by simpa using List.find?_some h⟩
  · rintro ⟨ha, rfl⟩
    cases h : s.get? (key a) with
    | none =>
      have := List.find?_eq_none.1 h a ha
      simp at this
    | some b =>
      have hb : key b = key a := by simpa using List.find?_some h
      rw [eq_of_key_eq (List.mem_of_find?_eq_some h) ha hb]

/-- The last value inserted under a key is the one found there. -/
theorem get?_insert [DecidableEq κ] {s : Keyed key} {a : α} {k : κ} :
    (s.insert a).get? k = if key a = k then some a else s.get? k := by
  refine Option.ext fun b => ?_
  rw [get?_eq_some_iff, mem_insert]
  split
  · rename_i h
    subst h
    simp only [Option.some.injEq]
    constructor
    · rintro ⟨rfl | ⟨_, hne⟩, e⟩
      · rfl
      · exact absurd e hne
    · rintro rfl
      exact ⟨.inl rfl, rfl⟩
  · rename_i h
    rw [get?_eq_some_iff]
    constructor
    · rintro ⟨rfl | ⟨hb, _⟩, e⟩
      · exact absurd e h
      · exact ⟨hb, e⟩
    · rintro ⟨hb, rfl⟩
      exact ⟨.inr ⟨hb, fun e => h e.symm⟩, rfl⟩

end Keyed

end Insert

end LayeredLedger
