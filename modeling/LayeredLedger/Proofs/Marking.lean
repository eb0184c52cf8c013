import LayeredLedger.Proofs.Lifecycle

/-!
# Marks

Completing and reversing leave one mark, a tag, and only on success. The mark is what a second
call looks for, so a second call finds nothing left to do, whatever the store says by then. A
group is marked as a whole or not at all.

* `Transaction.IsMarked`, `Transaction.TakesBack`: a transaction that got a mark, and one that
  takes another back;
* `IsNewestFirst`, `isNewestFirst_newestFirst`: a group in order of date, ties as they were;
* `PartiallyReversed`, `LedgerService.group_cases`: what there is to a group;
* `LedgerService.reverseGroup_of_open`: the reversal of a group of which nothing is reversed;
* `LedgerService.reverseGroup_eq_partiallyReversed`: the standard rules leave that answer to groups
  of which some is reversed;
* **`marking_is_atomic`**: what every outcome leaves of a transaction and of a group;
* `rules_and_blanks_blur_marks`: an answer and a tag that say too much.
-/

namespace LayeredLedger

/-! ## Marks on one transaction -/

namespace Transaction

/-- The transaction `t` with one more tag at the end, and nothing else changed. -/
structure IsMarked (t' t : Transaction) (mark : String) : Prop where
  tags : t'.tags.toList = t.tags.toList ++ [mark]
  rest : t' = { t with tags := t'.tags }

/-- The transaction posts every entry of `t` to the other side, in order, and has a tag that names
the reference of `t`. Tags have no outer blanks, so the reference loses its own. -/
structure TakesBack (r t : Transaction) : Prop where
  journal : r.journal = t.journal
  entries : r.entries = t.entries.map fun e => { e with side := e.side.opposite }
  tagged : Text.trim ("reverses:" ++ t.detail) ∈ r.tags

variable {t : Transaction}

theorem isMarked_completed (h : t.isCompleted = false) :
    (t.tag completedMark).IsMarked t completedMark where
  tags := by
    rw [tags_tag]
    exact Tags.toList_add (by decide) (of_decide_eq_false h)
  rest := by rw [tag]

theorem isMarked_reversed (h : t.isReversed = false) :
    (t.tag reversedMark).IsMarked t reversedMark where
  tags := by
    rw [tags_tag]
    exact Tags.toList_add (by decide) (of_decide_eq_false h)
  rest := by rw [tag]

theorem takesBack_reversal (t : Transaction) (reference : String) :
    (t.reversal reference).TakesBack t where
  journal := rfl
  entries := rfl
  tagged := by
    have hpair : pair? ("reverses:" ++ t.detail) = some ("reverses", Text.trim t.detail) :=
      pair?_append t.detail (by decide) (by decide) (by decide)
    rw [tags_reversal]
    exact Tags.mem_add.2 (.inr ⟨rfl, Tags.trim_ne_empty hpair⟩)

/-- A mark changes nothing of what is taken back. -/
theorem TakesBack.tag {r : Transaction} (h : r.TakesBack t) (mark : String) :
    r.TakesBack (t.tag mark) where
  journal := by rw [journal_tag, h.journal]
  entries := by rw [entries_tag, h.entries]
  tagged := by
    rw [detail_tag]
    exact h.tagged

end Transaction

namespace LedgerService

variable {s : LedgerService} {t : Transaction}

theorem complete_of_completed (h : t.isCompleted = true) (reference : String)
    (lookup : BalanceLookup) : s.complete t reference lookup = (.ok .alreadyCompleted, t) :=
  if_pos h

theorem reverse_of_reversed (h : t.isReversed = true) (reference : String)
    (lookup : BalanceLookup) : s.reverse t reference lookup = (.ok .alreadyReversed, t) :=
  if_pos h

end LedgerService

/-! ## Order of date -/

/-- The things of a list with the newest first. Those of one date keep their order. -/
structure IsNewestFirst {α : Type} (date : α → Int) (sorted l : List α) : Prop where
  perm : sorted.Perm l
  ordered : sorted.Pairwise fun a b => date b ≤ date a
  stable : ∀ d, sorted.filter (date · = d) = l.filter (date · = d)

theorem isNewestFirst_newestFirst {α : Type} (date : α → Int) (l : List α) :
    IsNewestFirst date (newestFirst date l) l := by
  have htrans : ∀ a b c : α, decide (date b ≤ date a) = true → decide (date c ≤ date b) = true →
      decide (date c ≤ date a) = true := by
    simp only [decide_eq_true_eq]
    omega
  have htotal : ∀ a b : α, (decide (date b ≤ date a) || decide (date a ≤ date b)) = true := by
    simp only [Bool.or_eq_true, decide_eq_true_eq]
    omega
  have hperm : (newestFirst date l).Perm l := List.mergeSort_perm _ _
  refine ⟨hperm, ?_, fun d => ?_⟩
  · exact (List.pairwise_mergeSort htrans htotal l).imp of_decide_eq_true
  · -- things of one date are in order as they are, so the sort keeps them as a sublist
    have hsame : (l.filter (date · = d)).Pairwise
        fun a b => decide (date b ≤ date a) = true := by
      refine List.pairwise_iff_forall_sublist.2 fun {a b} hab => ?_
      have ha := (List.mem_filter.1 (hab.subset (a := a) (by simp))).2
      have hb := (List.mem_filter.1 (hab.subset (a := b) (by simp))).2
      simp only [decide_eq_true_eq] at ha hb ⊢
      omega
    have hsub := (List.sublist_mergeSort htrans htotal hsame List.filter_sublist).filter
      (date · = d)
    simp only [List.filter_filter, Bool.and_self] at hsub
    exact (hsub.eq_of_length (hperm.filter _).length_eq.symm).symm

/-- Things of different dates have one order. -/
theorem newestFirst_eq {α : Type} {date : α → Int} {sorted l : List α} (hperm : sorted.Perm l)
    (hordered : sorted.Pairwise fun a b => date b < date a) : newestFirst date l = sorted := by
  have h := isNewestFirst_newestFirst date l
  have hnodup : (sorted.map date).Nodup :=
    List.pairwise_map.2 (hordered.imp fun hlt => (Int.ne_of_lt hlt).symm)
  refine List.Perm.eq_of_pairwise (fun a b ha hb hab hba => ?_) h.ordered
    (hordered.imp Int.le_of_lt) (h.perm.trans hperm.symm)
  have ha : a ∈ sorted := hperm.mem_iff.2 (h.perm.mem_iff.1 ha)
  exact List.inj_on_of_nodup_map hnodup ha hb (Int.le_antisymm hba hab)

/-! ## Marks on a group -/

/-- Some of the group is reversed, and some is not. -/
def PartiallyReversed (group : List Transaction) : Prop :=
  (∃ t ∈ group, t.isReversed = true) ∧ ∃ t ∈ group, t.isReversed = false

theorem partiallyReversed_iff {group : List Transaction} : PartiallyReversed group ↔
    0 < group.countP Transaction.isReversed ∧
      group.countP Transaction.isReversed < group.length := by
  have hle := List.countP_le_length (p := Transaction.isReversed) (l := group)
  rw [PartiallyReversed, List.countP_pos_iff]
  refine and_congr_right fun _ => ?_
  rw [Nat.lt_iff_le_and_ne, and_iff_right hle, ne_eq, List.countP_eq_length]
  simp

namespace LedgerService

variable {s : LedgerService} {reference : String} {group : List Transaction}
  {references : Nat → String} {lookup : BalanceLookup}

theorem reverseGroup_of_reversed (hne : group ≠ []) (hall : ∀ t ∈ group, t.isReversed = true) :
    s.reverseGroup reference group references lookup = (.ok .alreadyReversed, group) := by
  unfold reverseGroup
  dsimp only
  rw [if_neg (by simpa using hne), if_pos (List.countP_eq_length.2 hall)]

theorem reverseGroup_of_partiallyReversed (h : PartiallyReversed group) :
    s.reverseGroup reference group references lookup =
      (.error (.error (.partiallyReversedGroup reference
        (group.countP Transaction.isReversed) group.length)), group) := by
  obtain ⟨hpos, hlt⟩ := partiallyReversed_iff.1 h
  obtain ⟨⟨t, ht, -⟩, -⟩ := h
  unfold reverseGroup
  dsimp only
  rw [if_neg (by simpa using List.ne_nil_of_mem ht), if_neg hlt.ne, if_pos hpos]

/-- Nothing of the group is reversed, so it is put in order and its reversals go to the rules. -/
theorem reverseGroup_of_open (hne : group ≠ []) (hopen : ∀ t ∈ group, t.isReversed = false) :
    s.reverseGroup reference group references lookup =
      match (groupDrafts (newestFirst Transaction.postDate group) references).mapM
          (s.approve lookup) with
      | .ok reversals => (.ok (.reversed reversals),
          (newestFirst Transaction.postDate group).map (·.tag Transaction.reversedMark))
      | .error f => (.error f, newestFirst Transaction.postDate group) := by
  have hcount : group.countP Transaction.isReversed = 0 :=
    List.countP_eq_zero.2 fun t ht => by simp [hopen t ht]
  have hlength : 0 ≠ group.length := (List.length_pos_iff.2 hne).ne
  unfold reverseGroup
  dsimp only
  rw [hcount, if_neg (by simpa using hne), if_neg hlength]
  exact if_neg (Nat.lt_irrefl 0)

/-- A group is empty, reversed, partially reversed or not reversed at all. -/
theorem group_cases (group : List Transaction) :
    group = [] ∨ (group ≠ [] ∧ ∀ t ∈ group, t.isReversed = true) ∨ PartiallyReversed group ∨
      (group ≠ [] ∧ ∀ t ∈ group, t.isReversed = false) := by
  by_cases hne : group = []
  · exact .inl hne
  by_cases hall : ∀ t ∈ group, t.isReversed = true
  · exact .inr (.inl ⟨hne, hall⟩)
  by_cases hopen : ∀ t ∈ group, t.isReversed = false
  · exact .inr (.inr (.inr ⟨hne, hopen⟩))
  · simp only [not_forall, Bool.not_eq_true, Bool.not_eq_false, exists_prop] at hall hopen
    exact .inr (.inr (.inl ⟨hopen, hall⟩))

/-- A group that is open is refused for what is wrong with one of its reversals. -/
theorem exists_of_groupDrafts_error {f : Failure}
    (h : (groupDrafts group references).mapM (s.approve lookup) = .error f) :
    ∃ t ∈ group, ∃ i, validate (t.reversal (references i)).entries = .error f ∨
      s.rules.evaluate (t.reversal (references i)) lookup = .error f := by
  obtain ⟨draft, hdraft, h⟩ := exists_of_mapM_eq_error h
  obtain ⟨⟨t, i⟩, hti, rfl⟩ := List.mem_map.1 hdraft
  refine ⟨t, List.fst_mem_of_mem_zipIdx hti, i, ?_⟩
  rcases bind_eq_error.1 h with h | ⟨r, hr, h⟩
  · rcases bind_eq_error.1 h with h | ⟨_, -, h⟩
    · exact .inl h
    · cases h
  · obtain ⟨rfl, -⟩ := reversalDraft_eq_ok.1 hr
    rcases bind_eq_error.1 h with h | ⟨_, -, h⟩
    · exact .inr h
    · cases h

/-- The reversals of an open group take its transactions back, one by one, and all are marked. -/
theorem of_reverseGroup_eq_reversed {group' rs : List Transaction}
    (h : s.reverseGroup reference group references lookup = (.ok (.reversed rs), group')) :
    group ≠ [] ∧ (∀ t ∈ group, t.isReversed = false) ∧
      group' = (newestFirst Transaction.postDate group).map (·.tag Transaction.reversedMark) ∧
      List.Forall₂ Transaction.TakesBack rs group' := by
  rcases group_cases group with rfl | ⟨hne, hall⟩ | hpartly | ⟨hne, hopen⟩
  · cases (Prod.mk.inj h).1
  · rw [reverseGroup_of_reversed hne hall] at h
    cases (Prod.mk.inj h).1
  · rw [reverseGroup_of_partiallyReversed hpartly] at h
    cases (Prod.mk.inj h).1
  have hrs := reverseGroup_eq_reversed h
  rw [reverseGroup_of_open hne hopen] at h
  split at h
  · obtain rfl := (Prod.mk.inj h).2
    refine ⟨hne, hopen, rfl, ?_⟩
    rw [hrs, List.forall₂_map_left_iff, List.forall₂_map_right_iff]
    have heach : ∀ (t : Transaction) (i : Nat),
        (t.reversal (references i)).TakesBack (t.tag Transaction.reversedMark) :=
      fun t i => (t.takesBack_reversal _).tag _
    exact (forall₂_zipIdx heach 0).flip
  · cases (Prod.mk.inj h).1

/-- A group that is not reversed is at most put in order. -/
theorem perm_of_reverseGroup_eq_error {f : Failure} {group' : List Transaction}
    (h : s.reverseGroup reference group references lookup = (.error f, group')) :
    group'.Perm group := by
  rcases group_cases group with rfl | ⟨hne, hall⟩ | hpartly | ⟨hne, hopen⟩
  · obtain rfl := (Prod.mk.inj h).2
    exact .rfl
  · rw [reverseGroup_of_reversed hne hall] at h
    cases (Prod.mk.inj h).1
  · rw [reverseGroup_of_partiallyReversed hpartly] at h
    obtain rfl := (Prod.mk.inj h).2
    exact .rfl
  · rw [reverseGroup_of_open hne hopen] at h
    split at h
    · cases (Prod.mk.inj h).1
    · obtain rfl := (Prod.mk.inj h).2
      exact (isNewestFirst_newestFirst _ _).perm

theorem reverseGroup_eq_alreadyReversed :
    (s.reverseGroup reference group references lookup).1 = .ok .alreadyReversed ↔
      group ≠ [] ∧ ∀ t ∈ group, t.isReversed = true := by
  refine ⟨fun h => ?_, fun ⟨hne, hall⟩ => by rw [reverseGroup_of_reversed hne hall]⟩
  rcases group_cases group with rfl | hall | hpartly | ⟨hne, hopen⟩
  · cases h
  · exact hall
  · rw [reverseGroup_of_partiallyReversed hpartly] at h
    cases h
  · rw [reverseGroup_of_open hne hopen] at h
    split at h <;> cases h

/-- Only a partially reversed group is reported as such, or an open one of which the rules say
so. -/
theorem partiallyReversed_of_reverseGroup {name : String} {reversed total : Nat}
    (h : (s.reverseGroup reference group references lookup).1 =
      .error (.error (.partiallyReversedGroup name reversed total))) :
    PartiallyReversed group ∨ (∀ t ∈ group, t.isReversed = false) ∧ ∃ t ∈ group, ∃ i,
      s.rules.evaluate (t.reversal (references i)) lookup =
        .error (.error (.partiallyReversedGroup name reversed total)) := by
  rcases group_cases group with rfl | ⟨hne, hall⟩ | hpartly | ⟨hne, hopen⟩
  · cases h
  · rw [reverseGroup_of_reversed hne hall] at h
    cases h
  · exact .inl hpartly
  rw [reverseGroup_of_open hne hopen] at h
  split at h
  · cases h
  rename_i f hf
  obtain rfl := Except.error.inj h
  obtain ⟨t, ht, i, hvalid | hrules⟩ := exists_of_groupDrafts_error hf
  · rcases error_of_validate hvalid with he | ⟨_, _, he⟩ | ⟨_, _, _, he⟩ <;> cases he
  · have ht : t ∈ group := (isNewestFirst_newestFirst _ _).perm.mem_iff.1 ht
    exact .inr ⟨hopen, t, ht, i, hrules⟩

/-- The standard rules have no such answer of their own. -/
theorem reverseGroup_eq_partiallyReversed (hrules : s.rules = .standard s.currencies)
    {name : String} {reversed total : Nat} :
    (s.reverseGroup reference group references lookup).1 =
        .error (.error (.partiallyReversedGroup name reversed total)) ↔
      PartiallyReversed group ∧ name = reference ∧
        reversed = group.countP Transaction.isReversed ∧ total = group.length := by
  constructor
  · intro h
    rcases partiallyReversed_of_reverseGroup h with hpartly | ⟨-, t, -, i, hverdict⟩
    · rw [reverseGroup_of_partiallyReversed hpartly] at h
      cases h
      exact ⟨hpartly, rfl, rfl, rfl⟩
    · rw [hrules] at hverdict
      obtain ⟨_, _, _, he⟩ := error_of_evaluate_standard hverdict rfl
      cases he
  · rintro ⟨hpartly, rfl, rfl, rfl⟩
    rw [reverseGroup_of_partiallyReversed hpartly]

end LedgerService

/-! ## The main result -/

/-- **Marking is atomic and idempotent.** A call that completes or reverses nothing leaves the
transaction as it is. One that does appends its mark and changes nothing else, and then the same
call finds nothing to do, under every reference and whatever the store answers.

The reversal of a group that fails leaves its transactions as they are, at most in another order.
It has its own answers for a group that is empty, reversed or partially reversed. The last of them
comes up for an open group only where the rules give it themselves, which the standard rules never
do. When the reversal succeeds, the group is in order of date with the newest first, ties as they
were, and all of it is marked; the reversals take its transactions back one by one, each with a tag
that names the reference of its transaction, and a second call finds nothing to do. -/
theorem marking_is_atomic (s : LedgerService) :
    (∀ t t' reference lookup outcome, s.complete t reference lookup = (outcome, t') →
      ((∀ c, outcome ≠ .ok (.completed c)) → t' = t) ∧
      ∀ c, outcome = .ok (.completed c) → t'.IsMarked t Transaction.completedMark ∧
        ∀ reference' lookup', s.complete t' reference' lookup' = (.ok .alreadyCompleted, t')) ∧
    (∀ t t' reference lookup outcome, s.reverse t reference lookup = (outcome, t') →
      ((∀ r, outcome ≠ .ok (.reversed r)) → t' = t) ∧
      ∀ r, outcome = .ok (.reversed r) → t'.IsMarked t Transaction.reversedMark ∧
        ∀ reference' lookup', s.reverse t' reference' lookup' = (.ok .alreadyReversed, t')) ∧
    ∀ reference group references lookup outcome group',
      s.reverseGroup reference group references lookup = (outcome, group') →
      (∀ f, outcome = .error f → group'.Perm group) ∧
      (group = [] → outcome = .error (.error (.groupNotFound reference))) ∧
      (outcome = .ok .alreadyReversed ↔ group ≠ [] ∧ ∀ t ∈ group, t.isReversed = true) ∧
      (outcome = .ok .alreadyReversed → group' = group) ∧
      (PartiallyReversed group → outcome = .error (.error (.partiallyReversedGroup reference
        (group.countP Transaction.isReversed) group.length))) ∧
      (∀ name reversed total,
        outcome = .error (.error (.partiallyReversedGroup name reversed total)) →
          PartiallyReversed group ∨ (∀ t ∈ group, t.isReversed = false) ∧ ∃ t ∈ group, ∃ i,
            s.rules.evaluate (t.reversal (references i)) lookup =
              .error (.error (.partiallyReversedGroup name reversed total))) ∧
      (s.rules = .standard s.currencies → ∀ name reversed total,
        outcome = .error (.error (.partiallyReversedGroup name reversed total)) ↔
          PartiallyReversed group ∧ name = reference ∧
            reversed = group.countP Transaction.isReversed ∧ total = group.length) ∧
      ∀ rs, outcome = .ok (.reversed rs) → ∃ sorted,
        IsNewestFirst Transaction.postDate sorted group ∧
        List.Forall₂ (fun t' t => t'.IsMarked t Transaction.reversedMark) group' sorted ∧
        List.Forall₂ Transaction.TakesBack rs group' ∧
        ∀ reference' references' lookup',
          s.reverseGroup reference' group' references' lookup' =
            (.ok .alreadyReversed, group') := by
  refine ⟨fun t t' reference lookup outcome h => ⟨LedgerService.eq_of_complete h, ?_⟩,
    fun t t' reference lookup outcome h => ⟨LedgerService.eq_of_reverse h, ?_⟩,
    fun reference group references lookup outcome group' h => ?_⟩
  · rintro c rfl
    obtain ⟨hopen, -, rfl⟩ := LedgerService.complete_eq_completed.1 h
    exact ⟨Transaction.isMarked_completed hopen,
      LedgerService.complete_of_completed Transaction.isCompleted_tag⟩
  · rintro r rfl
    obtain ⟨hopen, -, rfl⟩ := LedgerService.reverse_eq_reversed.1 h
    exact ⟨Transaction.isMarked_reversed hopen,
      LedgerService.reverse_of_reversed Transaction.isReversed_tag⟩
  · refine ⟨?_, ?_, ?_, ?_, ?_, ?_, fun hrules name reversed total => ?_, ?_⟩
    · rintro f rfl
      exact LedgerService.perm_of_reverseGroup_eq_error h
    · rintro rfl
      exact (Prod.mk.inj h).1.symm
    · have hiff : (s.reverseGroup reference group references lookup).1 = .ok .alreadyReversed ↔ _ :=
        LedgerService.reverseGroup_eq_alreadyReversed
      rwa [h] at hiff
    · rintro rfl
      obtain ⟨hne, hall⟩ := LedgerService.reverseGroup_eq_alreadyReversed.1 (congrArg Prod.fst h)
      rw [LedgerService.reverseGroup_of_reversed hne hall] at h
      exact (Prod.mk.inj h).2.symm
    · intro hpartly
      rw [LedgerService.reverseGroup_of_partiallyReversed hpartly] at h
      exact (Prod.mk.inj h).1.symm
    · rintro name reversed total rfl
      exact LedgerService.partiallyReversed_of_reverseGroup (congrArg Prod.fst h)
    · rw [← LedgerService.reverseGroup_eq_partiallyReversed hrules, h]
    · rintro rs rfl
      obtain ⟨hne, hopen, rfl, htakes⟩ := LedgerService.of_reverseGroup_eq_reversed h
      have hsorted := isNewestFirst_newestFirst Transaction.postDate group
      refine ⟨_, hsorted, ?_, htakes, fun reference' references' lookup' => ?_⟩
      · rw [List.forall₂_map_left_iff, List.forall₂_same]
        exact fun t ht => Transaction.isMarked_reversed (hopen t (hsorted.perm.mem_iff.1 ht))
      · refine LedgerService.reverseGroup_of_reversed ?_ fun t' ht' => ?_
        · intro hnil
          exact hne (List.Perm.eq_nil (List.map_eq_nil_iff.1 hnil ▸ hsorted.perm.symm))
        · obtain ⟨t, -, rfl⟩ := List.mem_map.1 ht'
          exact Transaction.isReversed_tag

open SmallLedger in
/-- A deposit is completed, and the reversal of two deposits puts the later one first. A group is
not reversed if one of its deposits is reversed already. -/
theorem marking_is_atomic_smallLedger : ∃ t c t' rs,
    service.create (deposit 40) chart silent = .ok t ∧
    service.complete t "T2" silent = (.ok (.completed c), t') ∧
    t'.IsMarked t Transaction.completedMark ∧
    service.complete t' "T3" spent = (.ok .alreadyCompleted, t') ∧
    (service.reverseGroup "G1" [t, { t with postDate := 1 }] (fun _ => "R1") silent).1 =
      .ok (.reversed rs) ∧
    List.Forall₂ Transaction.TakesBack rs
      [{ t with postDate := 1 }.tag Transaction.reversedMark, t.tag Transaction.reversedMark] ∧
    (service.reverseGroup "G1" [{ t with postDate := 1 }.tag Transaction.reversedMark,
      t.tag Transaction.reversedMark] (fun _ => "R2") spent).1 = .ok .alreadyReversed ∧
    (service.reverseGroup "G1" [t, t.tag Transaction.reversedMark] (fun _ => "R1") silent).1 =
      .error (.error (.partiallyReversedGroup "G1" 1 2)) := by
  obtain ⟨t, ht, h⟩ := bind_eq_ok.1 (by decide +kernel : (do
    let t ← service.create (deposit 40) chart silent
    let _ ← service.approve silent (service.completionDraft t "T2")
    let _ ← (groupDrafts [{ t with postDate := 1 }, t] fun _ => "R1").mapM (service.approve silent)
    return decide (t.isCompleted = false ∧ t.isReversed = false ∧ t.postDate = 0)) =
      (.ok true : Except Failure Bool))
  obtain ⟨c, hc, h⟩ := bind_eq_ok.1 h
  obtain ⟨rs, hrs, h⟩ := bind_eq_ok.1 h
  obtain ⟨hcompleted, hreversed, hdate⟩ := of_decide_eq_true (Except.ok.inj h)
  obtain ⟨hcomplete, -, hgroup⟩ := marking_is_atomic service
  have hcompletes := LedgerService.complete_eq_completed.2 ⟨hcompleted, hc, rfl⟩
  obtain ⟨hmarked, hagain⟩ := (hcomplete t _ "T2" silent _ hcompletes).2 c rfl
  -- the later deposit comes first
  have hsorted : newestFirst Transaction.postDate [t, { t with postDate := 1 }] =
      [{ t with postDate := 1 }, t] :=
    newestFirst_eq (.swap ..) (by simp [hdate])
  have hreverses : service.reverseGroup "G1" [t, { t with postDate := 1 }] (fun _ => "R1") silent =
      _ := LedgerService.reverseGroup_of_open (by simp) (by simpa using ⟨hreversed, hreversed⟩)
  rw [hsorted, hrs] at hreverses
  obtain ⟨-, -, -, -, -, -, -, hall⟩ := hgroup _ _ _ _ _ _ hreverses
  obtain ⟨_, -, -, htakes, hnothing⟩ := hall rs rfl
  have hpartly : PartiallyReversed [t, t.tag Transaction.reversedMark] :=
    ⟨⟨t.tag Transaction.reversedMark, by simp, Transaction.isReversed_tag⟩, t, by simp, hreversed⟩
  obtain ⟨-, -, -, -, -, -, hstandard, -⟩ := hgroup "G1" [t, t.tag Transaction.reversedMark]
    (fun _ => "R1") silent _ _ rfl
  have hone : [t, t.tag Transaction.reversedMark].countP Transaction.isReversed = 1 := by
    simp [hreversed, Transaction.isReversed_tag]
  exact ⟨t, c, _, rs, ht, hcompletes, hmarked, hagain "T3" spent, congrArg Prod.fst hreverses,
    htakes, congrArg Prod.fst (hnothing "G1" (fun _ => "R2") spent),
    (hstandard rfl _ _ _).2 ⟨hpartly, rfl, hone.symm, rfl⟩⟩

open SmallLedger in
/-- A strict rule says that a group is partially reversed of which nothing is. And the reversals of
two transactions have one tag, as the references differ by a blank at the end. -/
theorem rules_and_blanks_blur_marks :
    (twoParts.isReversed = false ∧ ¬PartiallyReversed [twoParts] ∧
      (suspicious.reverseGroup "G1" [twoParts] (fun _ => "R1") silent).1 =
        .error (.error (.partiallyReversedGroup "G1" 1 2))) ∧
    (service.reverseGroup "G1" [twoParts, twin] (fun _ => "R1") silent).1 =
      .ok (.reversed [twoParts.reversal "R1", twin.reversal "R1"]) ∧
    twoParts.detail = "T1" ∧ twin.detail = "T1 " ∧
    (twoParts.reversal "R1").tags.toList = ["reverses:T1"] ∧
    (twin.reversal "R1").tags.toList = ["reverses:T1"] := by
  have hopen : twoParts.isReversed = false ∧ twin.isReversed = false := by decide
  have hrefused : (groupDrafts [twoParts] fun _ => "R1").mapM (suspicious.approve silent) =
      .error (.error (.partiallyReversedGroup "G1" 1 2)) := by decide +kernel
  have hpassed : (groupDrafts [twoParts, twin] fun _ => "R1").mapM (service.approve silent) =
      .ok [twoParts.reversal "R1", twin.reversal "R1"] := by decide +kernel
  have hsorted : newestFirst Transaction.postDate [twoParts, twin] = [twoParts, twin] :=
    List.mergeSort_of_pairwise (by decide)
  refine ⟨⟨hopen.1, ?_, ?_⟩, ?_, rfl, rfl, by decide +kernel, by decide +kernel⟩
  · rw [partiallyReversed_iff, List.countP_singleton, hopen.1]
    simp
  · rw [LedgerService.reverseGroup_of_open (by simp) (by simpa using hopen.1), newestFirst,
      List.mergeSort_singleton, hrefused]
  · rw [LedgerService.reverseGroup_of_open (by simp) (by simpa using hopen), hsorted, hpassed]

end LayeredLedger
