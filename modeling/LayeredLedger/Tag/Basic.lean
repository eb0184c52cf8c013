import LayeredLedger.Text.Blank

/-!
# Tags

A tag is a short text on an account, an entry or a transaction. Tags keep the order in which they
were added; none is empty, has a blank at an end, or occurs twice. A tag with a colon is also a
pair of a key and a value, and of several values under one key the last counts.

* `Tags`, `Tags.add`, `Tags.ofList`, `Tags.mergedWith`;
* `pair?`, `Tags.pairs`, `Tags.get?`, `Tags.hasKey`;
* `Tags.mem_add`, `Tags.mem_mergedWith`: what is in the result.
-/

namespace LayeredLedger

/-- The text can stand as a tag: it is not empty and has no blank at an end. -/
def IsTag (t : String) : Prop := t ≠ "" ∧ Text.trim t = t

instance (t : String) : Decidable (IsTag t) := inferInstanceAs (Decidable (_ ∧ _))

/-- Tags in the order in which they were added. -/
structure Tags where
  /-- The tags, first added first. -/
  toList : List String
  isTag : ∀ t ∈ toList, IsTag t
  nodup : toList.Nodup
deriving DecidableEq

/-- Cuts a tag at its first colon into a key and a value, without blanks around them. -/
def pair? (t : String) : Option (String × String) :=
  let cs := t.toList
  match cs.dropWhile (· ≠ ':') with
  | [] => none
  | _ :: value =>
    some (String.ofList (Text.trimChars (cs.takeWhile (· ≠ ':'))),
      String.ofList (Text.trimChars value))

namespace Tags

def empty : Tags := ⟨[], by simp, .nil⟩

instance : EmptyCollection Tags := ⟨empty⟩

instance : Inhabited Tags := ⟨∅⟩

instance : Membership String Tags := ⟨fun s t => t ∈ s.toList⟩

instance (t : String) (s : Tags) : Decidable (t ∈ s) := inferInstanceAs (Decidable (t ∈ s.toList))

def isEmpty (s : Tags) : Bool := s.toList.isEmpty

def size (s : Tags) : Nat := s.toList.length

/-- Adds a text without the blanks around it. An empty text, and a tag that is there already,
are left out. -/
def add (s : Tags) (tag : String) : Tags :=
  let t := Text.trim tag
  if h : t ≠ "" ∧ t ∉ s.toList then
    { toList := s.toList ++ [t]
      isTag := fun x hx => by
        rcases List.mem_append.1 hx with hx | hx
        · exact s.isTag x hx
        · obtain rfl := List.mem_singleton.1 hx
          exact ⟨h.1, Text.trim_trim tag⟩
      nodup := List.nodup_append.2
        ⟨s.nodup, by simp, fun a ha b hb e => h.2 (List.mem_singleton.1 hb ▸ e ▸ ha)⟩ }
  else s

def ofList (tags : List String) : Tags := tags.foldl add ∅

/-- These tags followed by others. A tag of both stands where it stands among the others, so
that the others answer every key they have. -/
def mergedWith (s other : Tags) : Tags where
  toList := s.toList.filter (· ∉ other.toList) ++ other.toList
  isTag := fun t ht => by
    rcases List.mem_append.1 ht with ht | ht
    · exact s.isTag t (List.mem_filter.1 ht).1
    · exact other.isTag t ht
  nodup := List.nodup_append.2
    ⟨s.nodup.filter _, other.nodup, fun a ha b hb e => by
      have := (List.mem_filter.1 ha).2
      simp only [decide_eq_true_eq] at this
      exact this (e ▸ hb)⟩

/-! ## Keys -/

/-- The keys and values, in the order of the tags. Tags without a colon are left out. -/
def pairs (s : Tags) : List (String × String) := s.toList.filterMap pair?

/-- The value of the last tag with this key. -/
def get? (s : Tags) (key : String) : Option String :=
  ((s.pairs.filter (·.1 = key)).getLast?).map Prod.snd

def hasKey (s : Tags) (key : String) : Bool := s.pairs.any (·.1 = key)

/-! ## Members -/

@[simp] theorem mem_toList {s : Tags} {t : String} : t ∈ s.toList ↔ t ∈ s := Iff.rfl

@[simp] theorem not_mem_empty (t : String) : t ∉ (∅ : Tags) := List.not_mem_nil

theorem ext_toList {a b : Tags} (h : a.toList = b.toList) : a = b := by
  cases a
  cases b
  cases h
  rfl

/-- What is in the tags after one was added. -/
theorem mem_add {s : Tags} {tag t : String} :
    t ∈ s.add tag ↔ t ∈ s ∨ (t = Text.trim tag ∧ t ≠ "") := by
  simp only [add]
  split
  · rename_i h
    change t ∈ s.toList ++ [Text.trim tag] ↔ _
    rw [List.mem_append, List.mem_singleton]
    exact or_congr_right ⟨fun e => ⟨e, e ▸ h.1⟩, And.left⟩
  · rename_i h
    refine ⟨.inl, ?_⟩
    rintro (ht | ⟨rfl, hne⟩)
    · exact ht
    · exact Classical.byContradiction fun hn => h ⟨hne, hn⟩

/-- What is in merged tags: all that is in either. -/
theorem mem_mergedWith {a b : Tags} {t : String} : t ∈ a.mergedWith b ↔ t ∈ a ∨ t ∈ b := by
  change t ∈ a.toList.filter (· ∉ b.toList) ++ b.toList ↔ _
  rw [List.mem_append, List.mem_filter]
  by_cases h : t ∈ b <;> simp [h]

end Tags

end LayeredLedger
