import LayeredLedger.Account.Chart
import Mathlib

/-!
# Charts of accounts with clean codes

A chart that is made of accounts with codes of their own finds every account again under its
code, the bridges too. So an account can be named by its code and nothing is lost.

* `CleanCodes`: what is asked of the accounts;
* `Chart.Lists`: the chart has an account under its code;
* `Chart.IsTidy`: the bridges are listed, and codes have no blanks at their ends;
* **`Chart.isTidy_ofList`**: charts of accounts with clean codes are tidy.
-/

namespace LayeredLedger

/-- Each code is used once, and none has a blank at an end. -/
def CleanCodes (accounts : List Account) : Prop :=
  (accounts.map Account.code).Nodup ∧ ∀ a ∈ accounts, Text.trim a.code = a.code

instance (accounts : List Account) : Decidable (CleanCodes accounts) :=
  inferInstanceAs (Decidable (_ ∧ _))

namespace Chart

/-- The chart has the account under its code. -/
def Lists (chart : Chart) (a : Account) : Prop := chart.account? a.code = some a

/-- The bridges are listed, and the codes of accounts have no blanks at their ends. -/
structure IsTidy (chart : Chart) : Prop where
  lists_bridge : ∀ b ∈ chart.bridges, chart.Lists b
  trim_code : ∀ a, chart.Lists a → Text.trim a.code = a.code

theorem account?_add (chart : Chart) (a : Account) (code : String) :
    (chart.add a).account? code = if a.code = code then some a else chart.account? code :=
  Keyed.get?_insert

theorem lists_of_account? {chart : Chart} {code : String} {a : Account}
    (h : chart.account? code = some a) : chart.Lists a ∧ a.code = code := by
  obtain ⟨-, rfl⟩ := Keyed.get?_eq_some_iff.1 h
  exact ⟨h, rfl⟩

theorem Lists.eq_of_code {chart : Chart} {a b : Account} (ha : chart.Lists a) (hb : chart.Lists b)
    (h : a.code = b.code) : a = b := by
  rw [Lists, h, hb] at ha
  exact (Option.some.inj ha).symm

theorem ofList_append (l : List Account) (a : Account) : ofList (l ++ [a]) = (ofList l).add a :=
  List.foldl_append

theorem mem_of_lists {l : List Account} {a : Account} (h : (ofList l).Lists a) : a ∈ l := by
  induction l using List.reverseRecOn with
  | nil => cases h
  | append_singleton l b ih =>
    rw [Lists, ofList_append, account?_add] at h
    split at h
    · simp [Option.some.inj h]
    · exact List.mem_append_left _ (ih h)

/-- An account of another code does not hide a listed one. -/
theorem Lists.add {chart : Chart} {a b : Account} (hb : chart.Lists b) (h : a.code ≠ b.code) :
    (chart.add a).Lists b := by
  rw [Lists, account?_add, if_neg h, hb]

theorem mem_bridges_add {chart : Chart} {a b : Account} (h : b ∈ (chart.add a).bridges) :
    b = a ∨ b ∈ chart.bridges := by
  unfold Chart.add at h
  dsimp only at h
  split at h
  · rcases List.mem_cons.1 h with rfl | h
    · exact .inl rfl
    · exact .inr (List.mem_filter.1 h).1
  · exact .inr h

/-- **Charts of accounts with clean codes are tidy.** -/
theorem isTidy_ofList {accounts : List Account} (h : CleanCodes accounts) :
    (ofList accounts).IsTidy := by
  refine ⟨?_, fun a ha => h.2 a (mem_of_lists ha)⟩
  have hnodup := h.1
  clear h
  induction accounts using List.reverseRecOn with
  | nil => simp [ofList, EmptyCollection.emptyCollection, empty]
  | append_singleton l a ih =>
    rw [List.map_append, List.nodup_append] at hnodup
    obtain ⟨hl, -, hdisjoint⟩ := hnodup
    intro b hb
    rw [ofList_append] at hb ⊢
    rcases mem_bridges_add hb with rfl | hb
    · rw [Lists, account?_add, if_pos rfl]
    · have hlisted := ih hl b hb
      have hmem : b.code ∈ l.map Account.code := List.mem_map_of_mem (mem_of_lists hlisted)
      exact hlisted.add fun e => hdisjoint _ hmem a.code (by simp) e.symm

theorem finalAccount_eq_ok_iff {chart : Chart} {code : String} {a : Account} :
    chart.finalAccount code = .ok a ↔ chart.account? code = some a ∧ a.holdsBalances = true := by
  unfold finalAccount
  cases chart.account? code with
  | none => simp
  | some b =>
    dsimp only
    split
    · rename_i hb
      rw [Except.ok.injEq, Option.some.injEq]
      exact ⟨fun h => ⟨h, h ▸ hb⟩, And.left⟩
    · rename_i hb
      refine ⟨nofun, fun h => absurd h.2 ?_⟩
      rwa [← Option.some.inj h.1]

theorem finalAccount_eq_ok {chart : Chart} {code : String} {a : Account}
    (h : chart.finalAccount code = .ok a) : chart.account? code = some a :=
  (finalAccount_eq_ok_iff.1 h).1

theorem IsTidy.lists_bridge? {chart : Chart} (h : chart.IsTidy) {currency : CurrencyCode}
    {role : BridgeRole} {b : Account} (hb : chart.bridge? currency role = some b) :
    chart.Lists b :=
  h.lists_bridge b (List.mem_of_find?_eq_some hb)

end Chart

end LayeredLedger
