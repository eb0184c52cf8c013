import LayeredLedger.Posting.Calls
import LayeredLedger.Proofs.Draft
import LayeredLedger.Proofs.SmallLedger

/-!
# Batches

An entry takes the tags of its transaction, and posting leaves these tags alone. So it does not
matter how specs are posted, in one batch, cut into several, or one by one: every call adds the
entries of its own specs at the end. It matters only when an amount is refused. Then a batch leaves
nothing behind, and single calls leave what came before.

* `inTurn`: calls that are made one after another;
* `Transaction.extended`: a transaction after specs are posted;
* `Transaction.postBatch_eq_ok`, `Transaction.postBatch_of_refused`, and the like for single calls;
* `inTurn_of_posts`, `inTurn_of_refused`: calls in turn, up to the first that is refused;
* **`batch_is_all_or_nothing`**: batches, and what equals them.
-/

namespace LayeredLedger

/-- Makes calls one after another, until one is refused. What was posted before it stays. -/
def inTurn {α : Type} (calls : List (Transaction → Except LedgerError α × Transaction))
    (t : Transaction) : Except LedgerError (List α) × Transaction :=
  match calls with
  | [] => (.ok [], t)
  | call :: calls =>
    match call t with
    | (.error e, after) => (.error e, after)
    | (.ok a, after) =>
      match inTurn calls after with
      | (.error e, last) => (.error e, last)
      | (.ok rest, last) => (.ok (a :: rest), last)

/-- The first spec that is refused, and the specs before it. -/
theorem firstNotPositive?_eq_some_iff {specs : List EntrySpec} {s : EntrySpec} :
    firstNotPositive? specs = some s ↔ ∃ before after, specs = before ++ s :: after ∧
      (∀ x ∈ before, 0 < x.amount) ∧ s.amount ≤ 0 := by
  rw [firstNotPositive?, List.find?_eq_some_iff_append]
  simp only [decide_eq_true_eq, Bool.not_eq_true', decide_eq_false_iff_not]
  constructor
  · rintro ⟨hs, before, after, rfl, hbefore⟩
    exact ⟨before, after, rfl, fun x hx => Int.not_le.1 (hbefore x hx), hs⟩
  · rintro ⟨before, after, rfl, hbefore, hs⟩
    exact ⟨hs, before, after, rfl, fun x hx => Int.not_le.2 (hbefore x hx)⟩

/-! ## One call -/

namespace Transaction

variable (t : Transaction) {specs : List EntrySpec}

/-- The transaction after specs are posted. -/
def extended (specs : List EntrySpec) : Transaction :=
  { t with entries := t.entries ++ specs.map t.entryOf }

@[simp] theorem extended_nil : t.extended [] = t := by
  rw [extended, List.map_nil, List.append_nil]

/-- Posting leaves the tags alone, so it does not change what specs become. -/
@[simp] theorem entryOf_extended (specs : List EntrySpec) :
    (t.extended specs).entryOf = t.entryOf := rfl

@[simp] theorem extended_extended (specs more : List EntrySpec) :
    (t.extended specs).extended more = t.extended (specs ++ more) := by
  rw [extended, entryOf_extended, extended, extended, List.map_append, List.append_assoc]

theorem post_of_refused {before after : List EntrySpec} {s : EntrySpec}
    (hbefore : ∀ x ∈ before, 0 < x.amount) (hs : s.amount ≤ 0) :
    t.post (before ++ s :: after) = .error (.invalidAmount s.account.code s.amount) := by
  have hfirst := firstNotPositive?_eq_some_iff.2 ⟨before, after, rfl, hbefore, hs⟩
  rw [post, checkAmounts, hfirst]

theorem postBatch_eq_ok (h : ∀ x ∈ specs, 0 < x.amount) :
    t.postBatch specs = (.ok (specs.map t.entryOf), t.extended specs) := by
  rw [postBatch, post_eq_ok.2 ⟨h, rfl⟩]
  show (Except.ok ((t.entries ++ specs.map t.entryOf).drop t.entries.length), _) = _
  rw [List.drop_left]
  rfl

theorem postBatch_of_refused {before : List EntrySpec} {s : EntrySpec} (after : List EntrySpec)
    (hbefore : ∀ x ∈ before, 0 < x.amount) (hs : s.amount ≤ 0) :
    t.postBatch (before ++ s :: after) =
      (.error (.invalidAmount s.account.code s.amount), t) := by
  rw [postBatch, t.post_of_refused hbefore hs]

/-- A batch is refused exactly if it has an amount that is not above zero. -/
theorem exists_postBatch_eq_error_iff :
    (∃ e, (t.postBatch specs).1 = .error e) ↔ ∃ s ∈ specs, s.amount ≤ 0 := by
  constructor
  · rintro ⟨e, he⟩
    by_contra hnone
    have hall : ∀ x ∈ specs, 0 < x.amount := fun x hx =>
      Int.not_le.1 fun hle => hnone ⟨x, hx, hle⟩
    rw [t.postBatch_eq_ok hall] at he
    cases he
  · rintro ⟨x, hx, hle⟩
    have hsome : (firstNotPositive? specs).isSome = true :=
      List.find?_isSome.2 ⟨x, hx, decide_eq_true hle⟩
    obtain ⟨s, hfirst⟩ := Option.isSome_iff_exists.1 hsome
    obtain ⟨before, after, rfl, hbefore, hs⟩ := firstNotPositive?_eq_some_iff.1 hfirst
    rw [t.postBatch_of_refused after hbefore hs]
    exact ⟨_, rfl⟩

theorem postSpec_eq_ok {s : EntrySpec} (h : 0 < s.amount) :
    t.postSpec s = (.ok (t.entryOf s), t.extended [s]) := by
  rw [postSpec, t.postBatch_eq_ok (by simpa using h)]
  rfl

theorem postSpec_of_refused {s : EntrySpec} (h : s.amount ≤ 0) :
    t.postSpec s = (.error (.invalidAmount s.account.code s.amount), t) := by
  have hbatch : t.postBatch [s] = (.error (.invalidAmount s.account.code s.amount), t) :=
    t.postBatch_of_refused [] (List.forall_mem_nil _) h
  rw [postSpec, hbatch]

theorem createEntry_eq_ok {s : EntrySpec} (htags : s.tags? = none) (h : 0 < s.amount) :
    t.createEntry s.side s.account s.amount s.detail s.layer =
      (.ok (t.entryOf s), t.extended [s]) := by
  have hentry : t.entryOf s = ⟨s.account, s.side, s.amount, s.layer, s.detail, t.tags⟩ := by
    rw [entryOf, htags]
    rfl
  have hpos : ¬s.amount ≤ 0 := Int.not_le.2 h
  rw [createEntry, if_neg hpos, extended, List.map_singleton, hentry]

end Transaction

/-- An entry that is put together from a spec is posted like the spec. -/
theorem EntryBuilder.post_ofSpec (s : EntrySpec) (t : Transaction) :
    (ofSpec s).post s.side t = t.postSpec s := by
  have hspec : (ofSpec s).spec s.side = s := by
    obtain ⟨account, side, amount, layer, detail, tags?⟩ := s
    cases tags? <;> rfl
  rw [post, hspec]

/-! ## Calls in turn -/

section Turns

variable {α β : Type} {call : β → Transaction → Except LedgerError α × Transaction}
  (specsOf : β → List EntrySpec) (answer : (EntrySpec → Entry) → β → α)

/-- Calls that all succeed add up to one list of specs. -/
theorem inTurn_of_posts {xs : List β} (t : Transaction)
    (h : ∀ x ∈ xs, ∀ t, call x t = (.ok (answer t.entryOf x), t.extended (specsOf x))) :
    inTurn (xs.map call) t =
      (.ok (xs.map (answer t.entryOf)), t.extended (xs.flatMap specsOf)) := by
  induction xs generalizing t with
  | nil => rw [List.flatMap_nil, t.extended_nil]; rfl
  | cons x xs ih =>
    have hfirst := h x List.mem_cons_self t
    have hrest := ih (t.extended (specsOf x)) fun y hy => h y (List.mem_cons_of_mem x hy)
    rw [t.entryOf_extended, t.extended_extended] at hrest
    simp only [List.map_cons, inTurn, hfirst, hrest, List.flatMap_cons]

/-- The first call that is refused ends it, and leaves the specs of the calls before it posted. -/
theorem inTurn_of_refused {before : List β} {x : β} (after : List β) {e : LedgerError}
    (t : Transaction)
    (h : ∀ x ∈ before, ∀ t, call x t = (.ok (answer t.entryOf x), t.extended (specsOf x)))
    (hx : ∀ t, call x t = (.error e, t)) :
    inTurn ((before ++ x :: after).map call) t =
      (.error e, t.extended (before.flatMap specsOf)) := by
  induction before generalizing t with
  | nil => simp only [List.nil_append, List.map_cons, inTurn, hx, List.flatMap_nil, t.extended_nil]
  | cons y before ih =>
    have hfirst := h y List.mem_cons_self t
    have hrest := ih (t.extended (specsOf y)) fun z hz => h z (List.mem_cons_of_mem y hz)
    rw [t.extended_extended] at hrest
    simp only [List.cons_append, List.map_cons, inTurn, hfirst, hrest, List.flatMap_cons]

end Turns

theorem inTurn_postBatch (t : Transaction) {parts : List (List EntrySpec)}
    (h : ∀ s ∈ parts.flatten, 0 < s.amount) :
    inTurn (parts.map fun part t => t.postBatch part) t =
      (.ok (parts.map fun part => part.map t.entryOf), t.extended parts.flatten) := by
  have hparts : ∀ part ∈ parts, ∀ t : Transaction,
      t.postBatch part = (.ok (part.map t.entryOf), t.extended part) := fun part hpart t =>
    t.postBatch_eq_ok fun s hs => h s (List.mem_flatten.2 ⟨part, hpart, hs⟩)
  have hturns := inTurn_of_posts id (fun f part => part.map f) t hparts
  rwa [List.flatMap_id] at hturns

/-! ## The main result -/

/-- **A batch is posted as a whole or not at all.** It is refused exactly if an amount is not above
zero. The error is about the first such amount, and the transaction is left as it was; entries that
are put together and posted one by one end at the same error, and leave the ones before posted.

If it is not refused, it adds one entry for each spec at the end, with the tags of the transaction
and after them those of the spec, and changes nothing else. The same entries come out, and the same
transaction is left, if the specs are cut into batches that are posted in turn, if they are put
together and posted one by one, and, without tags of their own, if they are created one by one. -/
theorem batch_is_all_or_nothing (t : Transaction) (specs : List EntrySpec) :
    ((∃ e, (t.postBatch specs).1 = .error e) ↔ ∃ s ∈ specs, s.amount ≤ 0) ∧
    (∀ before s after, specs = before ++ s :: after → (∀ x ∈ before, 0 < x.amount) →
      s.amount ≤ 0 →
      t.postBatch specs = (.error (.invalidAmount s.account.code s.amount), t) ∧
      inTurn (specs.map fun s => (EntryBuilder.ofSpec s).post s.side) t =
        (.error (.invalidAmount s.account.code s.amount),
          { t with entries := t.entries ++ before.map t.entryOf })) ∧
    ((∀ s ∈ specs, 0 < s.amount) → ∃ new after, t.postBatch specs = (.ok new, after) ∧
      new.Forall₂ (fun e s => e =
        ⟨s.account, s.side, s.amount, s.layer, s.detail, t.tags.propagate s.tags?⟩) specs ∧
      after = { t with entries := t.entries ++ new } ∧
      (∀ parts : List (List EntrySpec), parts.flatten = specs → ∃ answers,
        inTurn (parts.map fun part t => t.postBatch part) t = (.ok answers, after) ∧
          answers.flatten = new) ∧
      inTurn (specs.map fun s => (EntryBuilder.ofSpec s).post s.side) t = (.ok new, after) ∧
      ((∀ s ∈ specs, s.tags? = none) →
        inTurn (specs.map fun s t => t.createEntry s.side s.account s.amount s.detail s.layer) t =
          (.ok new, after))) := by
  have hbuilt : ∀ s : EntrySpec, 0 < s.amount → ∀ t,
      (EntryBuilder.ofSpec s).post s.side t = (.ok (t.entryOf s), t.extended [s]) := by
    intro s hs t
    rw [EntryBuilder.post_ofSpec, t.postSpec_eq_ok hs]
  refine ⟨t.exists_postBatch_eq_error_iff, ?_, fun hall => ?_⟩
  · rintro before s after rfl hbefore hs
    refine ⟨t.postBatch_of_refused after hbefore hs, ?_⟩
    have hrefused : ∀ t, (EntryBuilder.ofSpec s).post s.side t =
        (.error (.invalidAmount s.account.code s.amount), t) := fun t => by
      rw [EntryBuilder.post_ofSpec, t.postSpec_of_refused hs]
    have hturns := inTurn_of_refused (fun s => [s]) (fun f s => f s) after t
      (fun x hx => hbuilt x (hbefore x hx)) hrefused
    rwa [List.flatMap_singleton'] at hturns
  · refine ⟨specs.map t.entryOf, t.extended specs, t.postBatch_eq_ok hall, ?_, rfl, ?_, ?_, ?_⟩
    · exact List.forall₂_map_left_iff.2 (List.forall₂_same.2 fun s _ => rfl)
    · rintro parts rfl
      exact ⟨_, inTurn_postBatch t hall, List.map_flatten.symm⟩
    · have hturns := inTurn_of_posts (fun s => [s]) (fun f s => f s) t fun s hs =>
        hbuilt s (hall s hs)
      rwa [List.flatMap_singleton'] at hturns
    · intro hplain
      have hturns := inTurn_of_posts (fun s => [s]) (fun f s => f s) t fun s hs t =>
        t.createEntry_eq_ok (hplain s hs) (hall s hs)
      rwa [List.flatMap_singleton'] at hturns

namespace SmallLedger

/-- An amount from the payer to the wallet, with a tag where it comes in. -/
def transfer (amount : Fin 256) : List EntrySpec :=
  [.debit payer (dollars amount) (.of .base usdId) "out",
    (EntrySpec.credit wallet (dollars amount) (.of .base usdId) "in").tagged
      (.ofList ["note:gift"])]

end SmallLedger

open SmallLedger in
/-- The transfer is posted to a transaction with entries and a tag, as a batch and one by one. The
tag goes to both new entries, in front of the tag that one of them has of its own. -/
theorem batch_is_all_or_nothing_smallLedger : (∀ s ∈ transfer 2, 0 < s.amount) ∧
    ∃ e₁ e₂ after, (twoParts.tag "channel:app").postBatch (transfer 2) = (.ok [e₁, e₂], after) ∧
      after.entries = twoParts.entries ++ [e₁, e₂] ∧
      e₁.tags.toList = ["channel:app"] ∧ e₂.tags.toList = ["channel:app", "note:gift"] ∧
      inTurn ((transfer 2).map fun s => (EntryBuilder.ofSpec s).post s.side)
        (twoParts.tag "channel:app") = (.ok [e₁, e₂], after) := by
  have hall : ∀ s ∈ transfer 2, 0 < s.amount := by decide
  obtain ⟨-, -, hposts⟩ := batch_is_all_or_nothing (twoParts.tag "channel:app") (transfer 2)
  obtain ⟨new, after, hbatch, hnew, rfl, -, hturns, -⟩ := hposts hall
  obtain ⟨_, _, rfl, hsecond, rfl⟩ := List.forall₂_cons_right_iff.1 hnew
  obtain ⟨_, _, rfl, hnone, rfl⟩ := List.forall₂_cons_right_iff.1 hsecond
  obtain rfl := List.forall₂_nil_right_iff.1 hnone
  exact ⟨hall, _, _, _, hbatch, rfl, by decide +kernel, by decide +kernel, hturns⟩

end LayeredLedger
