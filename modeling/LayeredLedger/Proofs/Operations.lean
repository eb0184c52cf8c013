import LayeredLedger.Proofs.Outcome
import LayeredLedger.Service.Complete
import LayeredLedger.Service.Create
import LayeredLedger.Service.Reset
import LayeredLedger.Service.Reverse

/-!
# What operations went through

A transaction that the service returns was built, then validated, then passed by the rules. For
each operation of the service there is one lemma that says so; nothing else is known of its
result, and nothing else is needed.

* `create_eq_ok`, `complete_eq_completed`, `reverse_eq_reversed`, `reverseGroup_eq_reversed`,
  `dailyReset_eq_some`, `dailyReset_eq_none`;
* `approve_completionDraft`, `eq_of_approve_reversal`: drafts that the rules pass;
* `complete_of_not_completed`: a transaction that is not completed yet.
-/

namespace LayeredLedger

variable {s : LedgerService} {lookup : BalanceLookup} {reference : String}

theorem validated_eq_ok {built : Except LedgerError Transaction} {t : Transaction} :
    (do let t ← orError built; validate t.entries; return t) = Except.ok t ↔
      built = .ok t ∧ validate t.entries = .ok () := by
  constructor
  · intro h
    obtain ⟨t', ht, h⟩ := bind_eq_ok.1 h
    obtain ⟨_, hv, h⟩ := bind_eq_ok.1 h
    obtain rfl : t' = t := Except.ok.inj h
    exact ⟨orError_eq_ok.1 ht, hv⟩
  · rintro ⟨ht, hv⟩
    exact bind_eq_ok.2 ⟨t, orError_eq_ok.2 ht, bind_eq_ok.2 ⟨(), hv, rfl⟩⟩

namespace LedgerService

theorem approve_eq_ok {draft : Except Failure Transaction} {t : Transaction} :
    s.approve lookup draft = .ok t ↔ draft = .ok t ∧ s.rules.evaluate t lookup = .ok () := by
  constructor
  · intro h
    obtain ⟨t', ht, h⟩ := bind_eq_ok.1 h
    obtain ⟨_, hr, h⟩ := bind_eq_ok.1 h
    obtain rfl : t' = t := Except.ok.inj h
    exact ⟨ht, hr⟩
  · rintro ⟨rfl, hr⟩
    exact bind_eq_ok.2 ⟨t, rfl, bind_eq_ok.2 ⟨(), hr, rfl⟩⟩

theorem create_eq_ok {request : TransactionRequest} {chart : Chart} {t : Transaction} :
    s.create request chart lookup = .ok t ↔ s.build request chart = .ok t ∧
      validate t.entries = .ok () ∧ s.rules.evaluate t lookup = .ok () := by
  rw [create, approve_eq_ok, draft, validated_eq_ok, and_assoc]

/-! ## Completion -/

theorem complete_of_not_completed {t : Transaction} (h : t.isCompleted = false) :
    s.complete t reference lookup =
      match s.approve lookup (s.completionDraft t reference) with
      | .ok completion => (.ok (.completed completion), t.tag Transaction.completedMark)
      | .error f => (.error f, t) :=
  if_neg (by simp [h])

theorem complete_eq_completed {t t' c : Transaction} :
    s.complete t reference lookup = (.ok (.completed c), t') ↔ t.isCompleted = false ∧
      s.approve lookup (s.completionDraft t reference) = .ok c ∧
      t' = t.tag Transaction.completedMark := by
  by_cases ht : t.isCompleted = true
  · simp [complete, ht]
  have ht : t.isCompleted = false := by simpa using ht
  rw [complete_of_not_completed ht]
  cases s.approve lookup (s.completionDraft t reference) with
  | ok c' => simp [ht, eq_comm]
  | error f => simp

theorem approve_completionDraft {t c : Transaction} :
    s.approve lookup (s.completionDraft t reference) = .ok c ↔
      s.buildCompletion t reference = .ok c ∧ validate c.entries = .ok () ∧
      s.rules.evaluate c lookup = .ok () := by
  rw [approve_eq_ok, completionDraft, validated_eq_ok, and_assoc]

theorem approve_completionDraft_of_error {t : Transaction} {e : LedgerError}
    (h : s.buildCompletion t reference = .error e) :
    s.approve lookup (s.completionDraft t reference) = .error (.error e) :=
  bind_eq_error.2 (.inl (bind_eq_error.2 (.inl (orError_eq_error.2 ⟨e, h, rfl⟩))))

theorem approve_completionDraft_of_invalid {t c : Transaction} {f : Failure}
    (hbuilt : s.buildCompletion t reference = .ok c) (hvalid : validate c.entries = .error f) :
    s.approve lookup (s.completionDraft t reference) = .error f :=
  bind_eq_error.2 (.inl (bind_eq_error.2 (.inr
    ⟨c, orError_eq_ok.2 hbuilt, bind_eq_error.2 (.inl hvalid)⟩)))

/-! ## Reversal -/

theorem reverse_eq_reversed {t t' r : Transaction} :
    s.reverse t reference lookup = (.ok (.reversed r), t') ↔ t.isReversed = false ∧
      s.approve lookup (reversalDraft t reference) = .ok r ∧
      t' = t.tag Transaction.reversedMark := by
  by_cases ht : t.isReversed = true
  · simp [reverse, ht]
  rw [reverse, if_neg ht]
  have ht : t.isReversed = false := by simpa using ht
  cases s.approve lookup (reversalDraft t reference) with
  | ok r' => simp [ht, eq_comm]
  | error f => simp

theorem reversalDraft_eq_ok {t r : Transaction} : reversalDraft t reference = .ok r ↔
    r = t.reversal reference ∧ validate r.entries = .ok () := by
  constructor
  · intro h
    obtain ⟨_, hvalid, h⟩ := bind_eq_ok.1 h
    obtain rfl := Except.ok.inj h
    exact ⟨rfl, hvalid⟩
  · rintro ⟨rfl, hvalid⟩
    exact bind_eq_ok.2 ⟨(), hvalid, rfl⟩

theorem eq_of_approve_reversal {t r : Transaction}
    (h : s.approve lookup (reversalDraft t reference) = .ok r) : r = t.reversal reference :=
  (reversalDraft_eq_ok.1 (approve_eq_ok.1 h).1).1

/-- The reversals of a group are those of its transactions, that of the newest first. -/
theorem reverseGroup_eq_reversed {group group' rs : List Transaction} {references : Nat → String}
    (h : s.reverseGroup reference group references lookup = (.ok (.reversed rs), group')) :
    rs = (newestFirst Transaction.postDate group).zipIdx.map
      fun (t, i) => t.reversal (references i) := by
  unfold reverseGroup at h
  dsimp only at h
  split at h
  · cases (Prod.mk.inj h).1
  split at h
  · cases (Prod.mk.inj h).1
  split at h
  · cases (Prod.mk.inj h).1
  split at h
  · rename_i rs' hrs
    obtain rfl : rs' = rs := GroupReversal.reversed.inj (Except.ok.inj (Prod.mk.inj h).1)
    have hall := mapM_eq_ok_iff.1 hrs
    rw [groupDrafts, List.forall₂_map_left_iff] at hall
    have heach := hall.imp fun _ _ hr => (eq_of_approve_reversal hr).symm
    rw [← List.forall₂_eq_eq_eq, List.forall₂_map_right_iff]
    exact heach.flip.imp fun _ _ => Eq.symm
  · cases (Prod.mk.inj h).1

/-! ## Resetting -/

theorem dailyReset_eq_some {journal : JournalId} {chart : Chart} {t : Transaction}
    (h : s.dailyReset journal chart reference lookup = .ok (some t)) :
    ∃ specs, (usageAccounts chart).mapM (s.resetSpecs journal chart lookup) = .ok specs ∧
      (Transaction.start journal reference (.ofList [resetTag])).post specs.flatten = .ok t ∧
      validate t.entries = .ok () := by
  obtain ⟨specs, hspecs, h⟩ := bind_eq_ok.1 h
  split at h
  · cases Except.ok.inj h
  · obtain ⟨t', ht', h⟩ := bind_eq_ok.1 h
    obtain ⟨_, hvalid, h⟩ := bind_eq_ok.1 h
    obtain rfl : t' = t := Option.some.inj (Except.ok.inj h)
    exact ⟨specs, hspecs, orError_eq_ok.1 ht', hvalid⟩

theorem dailyReset_eq_none {journal : JournalId} {chart : Chart}
    (h : s.dailyReset journal chart reference lookup = .ok none) :
    ∃ specs, (usageAccounts chart).mapM (s.resetSpecs journal chart lookup) = .ok specs ∧
      specs.flatten = [] := by
  obtain ⟨specs, hspecs, h⟩ := bind_eq_ok.1 h
  split at h
  · rename_i hnone
    exact ⟨specs, hspecs, List.isEmpty_iff.1 hnone⟩
  · obtain ⟨t', -, h⟩ := bind_eq_ok.1 h
    obtain ⟨_, -, h⟩ := bind_eq_ok.1 h
    cases Except.ok.inj h

end LedgerService

end LayeredLedger
