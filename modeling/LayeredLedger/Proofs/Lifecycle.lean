import LayeredLedger.Proofs.Completion
import LayeredLedger.Proofs.DoubleEntry
import LayeredLedger.Proofs.LimitSoundness

/-!
# The life of a transaction

A transaction that waits for completion is completed or reversed later. Each operation marks the
transaction and looks for its own mark alone. So there is at most one completion and at most one
reversal, however often both are asked for, but there may be one of each: then what waits is taken
back twice.

* `LifeCall`, `Life`, `LedgerService.live`: calls about one transaction, and what they return;
* `LedgerService.liveStep_cases`: what one call comes to;
* `IsDraft.net_completion`, `net_reversal`: a completion takes back what is outside of the base
  layers, a reversal everything;
* `Life.Inv`, `Life.Inv.step`: what every call keeps true;
* **`live_settles_once`**: one completion and one reversal at most, and what they leave;
* `completed_and_reversed`: both can happen.
-/

namespace LayeredLedger

/-! ## Calls about one transaction -/

/-- A call about a transaction. -/
inductive LifeCall where
  | complete (reference : String) (lookup : BalanceLookup)
  | reverse (reference : String) (lookup : BalanceLookup)

/-- A transaction as it is now, and the transactions that were returned for it. -/
structure Life where
  current : Transaction
  completions : List Transaction
  reversals : List Transaction

/-- The transactions that were returned, completions first. -/
def Life.returned (life : Life) : List Transaction := life.completions ++ life.reversals

namespace LedgerService

/-- One call. The transaction is handed on as the call leaves it. -/
def liveStep (s : LedgerService) (life : Life) : LifeCall → Life
  | .complete reference lookup =>
    match s.complete life.current reference lookup with
    | (.ok (.completed c), t) => { life with current := t, completions := life.completions ++ [c] }
    | (_, t) => { life with current := t }
  | .reverse reference lookup =>
    match s.reverse life.current reference lookup with
    | (.ok (.reversed r), t) => { life with current := t, reversals := life.reversals ++ [r] }
    | (_, t) => { life with current := t }

/-- Calls about a transaction, one after the other. -/
def live (s : LedgerService) (t : Transaction) (calls : List LifeCall) : Life :=
  calls.foldl s.liveStep ⟨t, [], []⟩

end LedgerService

/-! ## What is returned -/

namespace LedgerService

variable {s : LedgerService} {t t' : Transaction} {reference : String} {lookup : BalanceLookup}

/-- A call that completes nothing leaves the transaction as it is. -/
theorem eq_of_complete {outcome : Except Failure Completion}
    (h : s.complete t reference lookup = (outcome, t'))
    (hnone : ∀ c, outcome ≠ .ok (.completed c)) : t' = t := by
  unfold complete at h
  split at h
  · exact (Prod.mk.inj h).2.symm
  split at h
  · rename_i c _
    exact absurd (Prod.mk.inj h).1.symm (hnone c)
  · exact (Prod.mk.inj h).2.symm

/-- A call that reverses nothing leaves the transaction as it is. -/
theorem eq_of_reverse {outcome : Except Failure Reversal}
    (h : s.reverse t reference lookup = (outcome, t'))
    (hnone : ∀ r, outcome ≠ .ok (.reversed r)) : t' = t := by
  unfold reverse at h
  split at h
  · exact (Prod.mk.inj h).2.symm
  split at h
  · rename_i r _
    exact absurd (Prod.mk.inj h).1.symm (hnone r)
  · exact (Prod.mk.inj h).2.symm

/-- What one call comes to: nothing, a completion and its mark, or a reversal and its mark. -/
theorem liveStep_cases (s : LedgerService) (life : Life) (call : LifeCall) :
    s.liveStep life call = life ∨
    (∃ reference lookup c, s.complete life.current reference lookup =
        (.ok (.completed c), life.current.tag Transaction.completedMark) ∧
      s.liveStep life call = ⟨life.current.tag Transaction.completedMark,
        life.completions ++ [c], life.reversals⟩) ∨
    ∃ reference lookup r, s.reverse life.current reference lookup =
        (.ok (.reversed r), life.current.tag Transaction.reversedMark) ∧
      s.liveStep life call = ⟨life.current.tag Transaction.reversedMark,
        life.completions, life.reversals ++ [r]⟩ := by
  cases call with
  | complete reference lookup =>
    simp only [liveStep]
    split
    · rename_i c t' hcompleted
      obtain ⟨-, -, rfl⟩ := complete_eq_completed.1 hcompleted
      exact .inr (.inl ⟨reference, lookup, c, hcompleted, rfl⟩)
    · rename_i outcome t' hnone hcompleted
      obtain rfl := eq_of_complete hcompleted hnone
      exact .inl rfl
  | reverse reference lookup =>
    simp only [liveStep]
    split
    · rename_i r t' hreversed
      obtain ⟨-, -, rfl⟩ := reverse_eq_reversed.1 hreversed
      exact .inr (.inr ⟨reference, lookup, r, hreversed, rfl⟩)
    · rename_i outcome t' hnone hreversed
      obtain rfl := eq_of_reverse hreversed hnone
      exact .inl rfl

end LedgerService

section Nets

variable (who : Account → Bool) {t version c : Transaction}

/-- A completion takes back what is outside of the base layers. -/
theorem IsDraft.net_completion {s : LedgerService} {request : TransactionRequest} {chart : Chart}
    {strategy : Strategy} {plans : List EntryPlan} (hd : IsDraft s request chart t strategy plans)
    (hv : version.IsVersionOf t) {reference : String}
    (h : s.buildCompletion version reference = .ok c) {layer : Layer}
    (hlayer : layer.isInBand .base = false) :
    net who layer c.postings = -net who layer t.postings := by
  obtain ⟨layers, settled, hlayers, -, hpostings, hsettled⟩ :=
    LedgerService.buildCompletion_eq_ok h
  -- the version has the entries of `t`, so it has the same base layers and the same way back
  have hread : layers = t.readLayers := by
    rw [LedgerService.baseLayersOf_eq_ok hlayers, Transaction.readLayers, hv.entries]
    rfl
  have hunwind : unwindSpecs version layers = unwindSpecs t t.readLayers := by
    rw [hread, unwindSpecs, Transaction.reversalSpecs, hv.entries]
    rfl
  have hsettled : net who layer (settled.map EntrySpec.posting) = 0 := by
    refine net_eq_zero _ _ fun q hq hql => ?_
    obtain ⟨x, hx, rfl⟩ := List.mem_map.1 hq
    obtain ⟨e, -, hx⟩ := hsettled x hx
    rw [LedgerService.baseLayersOf_eq_ok hlayers] at hx
    obtain ⟨e', -, -, hbase⟩ := hx.exists_base
    rw [show x.layer = layer from hql] at hbase
    rw [hbase, Layer.isInBand_of] at hlayer
    simp at hlayer
  rw [hpostings, List.map_append, net_append, hsettled, hunwind, hd.unwindSpecs_postings,
    net_opposite, net_filter_layer _ _ fun layer => !layer.isInBand .base, hlayer]
  simp

/-- A reversal takes everything back. -/
theorem net_reversal (hv : version.IsVersionOf t) (reference : String) (layer : Layer) :
    net who layer (version.reversal reference).postings = -net who layer t.postings := by
  rw [Transaction.postings_reversal, net_opposite, Transaction.postings, hv.entries]
  rfl

end Nets

/-! ## What every call keeps true -/

namespace Transaction

variable {t version : Transaction}

theorem IsVersionOf.tag (h : version.IsVersionOf t) (text : String) :
    (version.tag text).IsVersionOf t where
  journal := by rw [journal_tag, h.journal]
  entries := by rw [entries_tag, h.entries]

theorem isCompleted_tag : (t.tag completedMark).isCompleted = true := by
  rw [isCompleted, tags_tag]
  exact decide_eq_true (Tags.mem_add.2 (.inr ⟨by decide, by decide⟩))

theorem isReversed_tag : (t.tag reversedMark).isReversed = true := by
  rw [isReversed, tags_tag]
  exact decide_eq_true (Tags.mem_add.2 (.inr ⟨by decide, by decide⟩))

theorem isCompleted_tag_of (h : t.isCompleted = true) (text : String) :
    (t.tag text).isCompleted = true := by
  rw [isCompleted, tags_tag]
  exact decide_eq_true (Tags.mem_add.2 (.inl (of_decide_eq_true h)))

theorem isReversed_tag_of (h : t.isReversed = true) (text : String) :
    (t.tag text).isReversed = true := by
  rw [isReversed, tags_tag]
  exact decide_eq_true (Tags.mem_add.2 (.inl (of_decide_eq_true h)))

end Transaction

/-- What every call about a transaction keeps true. -/
structure Life.Inv (t : Transaction) (life : Life) : Prop where
  version : life.current.IsVersionOf t
  completed : life.completions = [] ∨
    life.completions.length = 1 ∧ life.current.isCompleted = true
  reversed : life.reversals = [] ∨ life.reversals.length = 1 ∧ life.current.isReversed = true
  takesBack : ∀ u ∈ life.returned, ∀ who layer, layer.isInBand .base = false →
    net who layer u.postings = -net who layer t.postings

namespace Life.Inv

variable {t : Transaction} {life : Life}

theorem new (t : Transaction) : (⟨t, [], []⟩ : Life).Inv t :=
  ⟨.refl t, .inl rfl, .inl rfl, fun _ h => nomatch h⟩

theorem complete (h : life.Inv t) (hopen : life.current.isCompleted = false) {c : Transaction}
    (hc : ∀ who layer, layer.isInBand .base = false →
      net who layer c.postings = -net who layer t.postings) :
    Life.Inv t ⟨life.current.tag Transaction.completedMark, life.completions ++ [c],
      life.reversals⟩ where
  version := h.version.tag _
  completed := by
    rcases h.completed with hnone | ⟨-, hdone⟩
    · exact .inr ⟨by simp [hnone], Transaction.isCompleted_tag⟩
    · rw [hopen] at hdone
      cases hdone
  reversed := h.reversed.imp id fun ⟨hone, hdone⟩ => ⟨hone, Transaction.isReversed_tag_of hdone _⟩
  takesBack u hu := by
    simp only [returned, List.append_assoc, List.mem_append, List.mem_singleton] at hu
    rcases hu with hu | rfl | hu
    · exact h.takesBack u (List.mem_append_left _ hu)
    · exact hc
    · exact h.takesBack u (List.mem_append_right _ hu)

theorem reverse (h : life.Inv t) (hopen : life.current.isReversed = false) {r : Transaction}
    (hr : ∀ who layer, layer.isInBand .base = false →
      net who layer r.postings = -net who layer t.postings) :
    Life.Inv t ⟨life.current.tag Transaction.reversedMark, life.completions,
      life.reversals ++ [r]⟩ where
  version := h.version.tag _
  completed :=
    h.completed.imp id fun ⟨hone, hdone⟩ => ⟨hone, Transaction.isCompleted_tag_of hdone _⟩
  reversed := by
    rcases h.reversed with hnone | ⟨-, hdone⟩
    · exact .inr ⟨by simp [hnone], Transaction.isReversed_tag⟩
    · rw [hopen] at hdone
      cases hdone
  takesBack u hu := by
    rw [returned, ← List.append_assoc] at hu
    rcases List.mem_append.1 hu with hu | hu
    · exact h.takesBack u hu
    · rw [List.mem_singleton.1 hu]
      exact hr

variable {s : LedgerService} {request : TransactionRequest} {chart : Chart}
  {strategy : Strategy} {plans : List EntryPlan}

/-- **Every call keeps the invariant.** -/
theorem step (h : life.Inv t) (hd : IsDraft s request chart t strategy plans) (call : LifeCall) :
    (s.liveStep life call).Inv t := by
  rcases s.liveStep_cases life call with
    hstep | ⟨reference, _, c, hcompleted, hstep⟩ | ⟨reference, _, r, hreversed, hstep⟩
  · rwa [hstep]
  · obtain ⟨hopen, hdraft, -⟩ := LedgerService.complete_eq_completed.1 hcompleted
    obtain ⟨hbuilt, -⟩ := LedgerService.approve_completionDraft.1 hdraft
    rw [hstep]
    exact h.complete hopen fun who layer => hd.net_completion who h.version hbuilt
  · obtain ⟨hopen, hdraft, -⟩ := LedgerService.reverse_eq_reversed.1 hreversed
    rw [hstep]
    refine h.reverse hopen fun who layer _ => ?_
    rw [LedgerService.eq_of_approve_reversal hdraft]
    exact net_reversal who h.version reference layer

theorem live (hd : IsDraft s request chart t strategy plans) (calls : List LifeCall) :
    (s.live t calls).Inv t := by
  have hfold : ∀ life : Life, life.Inv t → (calls.foldl s.liveStep life).Inv t := by
    induction calls with
    | nil => exact fun life h => h
    | cons call calls ih => exact fun life h => ih _ (h.step hd call)
  exact hfold _ (new t)

theorem length_completions_le (h : life.Inv t) : life.completions.length ≤ 1 := by
  rcases h.completed with hnone | ⟨hone, -⟩
  · simp [hnone]
  · exact hone.le

theorem length_reversals_le (h : life.Inv t) : life.reversals.length ≤ 1 := by
  rcases h.reversed with hnone | ⟨hone, -⟩
  · simp [hnone]
  · exact hone.le

/-- Every transaction that was returned takes back the net once. -/
theorem net_returned (h : life.Inv t) (who : Account → Bool) {layer : Layer}
    (hlayer : layer.isInBand .base = false) :
    net who layer (life.returned.flatMap Transaction.postings) =
      -life.returned.length * net who layer t.postings := by
  have htakes := fun u hu => h.takesBack u hu who layer hlayer
  generalize life.returned = returned at htakes
  induction returned with
  | nil => simp
  | cons u returned ih =>
    rw [List.flatMap_cons, net_append, htakes u (by simp), ih fun v hv => htakes v (by simp [hv]),
      List.length_cons]
    push_cast
    ring

end Life.Inv

/-! ## The main result -/

/-- **A transaction is completed at most once and reversed at most once**, whatever calls are made
about it and in whatever order. Each of the two takes back what the transaction posted outside of
the base layers, on pending layers too, so that there nothing is left if one of them succeeded,
and the opposite of the transaction if both did. -/
theorem live_settles_once {s : LedgerService} {request : TransactionRequest} {chart : Chart}
    {lookup : BalanceLookup} {t : Transaction} (hcreate : s.create request chart lookup = .ok t)
    (calls : List LifeCall) :
    (s.live t calls).completions.length ≤ 1 ∧ (s.live t calls).reversals.length ≤ 1 ∧
      ∀ x layer, layer.isInBand .base = false →
        netOf x layer (t.postings ++ (s.live t calls).returned.flatMap Transaction.postings) =
          (1 - (s.live t calls).returned.length) * netOf x layer t.postings := by
  obtain ⟨strategy, plans, hd⟩ := exists_isDraft (LedgerService.create_eq_ok.1 hcreate).1
  have hinv := Life.Inv.live hd calls
  refine ⟨hinv.length_completions_le, hinv.length_reversals_le, fun x layer hlayer => ?_⟩
  rw [netOf_append, netOf, netOf, hinv.net_returned _ hlayer]
  ring

open SmallLedger in
/-- A deposit that is completed, with a second try, and then reversed all the same. -/
theorem live_settles_once_smallLedger : ∃ t, service.create
    (request true .inbound [entry .amount payer wallet 40]) chart silent = .ok t ∧
    (service.live t [.complete "T2" silent, .complete "T3" silent, .reverse "T4" silent]
      ).completions.length ≤ 1 ∧
    netOf wallet (.of .pending usdId) (t.postings ++ (service.live t [.complete "T2" silent,
      .complete "T3" silent, .reverse "T4" silent]).returned.flatMap Transaction.postings) =
        -netOf wallet (.of .pending usdId) t.postings := by
  obtain ⟨t, ht, hlength⟩ := map_eq_ok.1 (by decide +kernel : (service.create
    (request true .inbound [entry .amount payer wallet 40]) chart silent).map (fun t =>
      (service.live t [.complete "T2" silent, .complete "T3" silent, .reverse "T4" silent]
        ).returned.length) = .ok 2)
  obtain ⟨hcompletions, -, hnet⟩ := live_settles_once ht
    [.complete "T2" silent, .complete "T3" silent, .reverse "T4" silent]
  refine ⟨t, ht, hcompletions, ?_⟩
  rw [hnet wallet (.of .pending usdId) (by decide), hlength]
  push_cast
  ring

open SmallLedger in
/-- A deposit can be completed after it was reversed, so a transaction that waits is not always
settled or undone. -/
theorem completed_and_reversed :
    ¬∀ (s : LedgerService) (request : TransactionRequest) (chart : Chart) (lookup : BalanceLookup)
      (t : Transaction) (calls : List LifeCall), request.shape.pending = true →
      s.create request chart lookup = .ok t → (s.live t calls).returned.length ≤ 1 := by
  intro h
  obtain ⟨t, ht, hlength⟩ := map_eq_ok.1 (by decide +kernel : (service.create
    (request true .inbound [entry .amount payer wallet 40]) chart silent).map (fun t =>
      (service.live t [.reverse "T2" silent, .complete "T3" silent]).returned.length) = .ok 2)
  have hle := h service _ chart silent t [.reverse "T2" silent, .complete "T3" silent] rfl ht
  rw [hlength] at hle
  exact absurd hle (by decide)

end LayeredLedger
