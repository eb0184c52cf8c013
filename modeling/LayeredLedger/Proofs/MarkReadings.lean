import LayeredLedger.Proofs.Marking
import LayeredLedger.Proofs.TypedTags

/-!
# Two readings of the marks

The service looks for a mark among the tags of a transaction, in the one spelling in which it
writes it. The typed view takes the last tag under the key of the mark, and in it every spelling of
true is the same. The readings agree as long as nothing else stands under these keys. That is so
for what the service made from metadata that leave the keys alone, whatever calls were made since.

* `Tags.MarksPlainly`: the mark is there if and only if the last tag under its key says true;
* `TagMap.flag_iff`, `TagMap.mark_eq_flag_iff`: when the two readings of a mark agree;
* `Transaction.isCompleted_eq_flag_iff`, `Transaction.isReversed_eq_flag_iff`: the same for both
  marks of a transaction;
* `Tags.HasOnlyMark`: nothing but the mark stands under its key;
* `LedgerService.complete_eq_alreadyCompleted`, `LedgerService.reverse_eq_alreadyReversed`: the
  reading that the service goes by;
* `Life.IsMarkedByCalls`, `Life.IsMarkedByCalls.step`: the marks say what was returned;
* **`marks_read_alike_iff`**: when the readings agree, and what follows;
* `marks_read_differently`: a transaction that is completed though its view says that it was.
-/

namespace LayeredLedger

/-! ## The two readings -/

theorem pair?_mark {name : String} (hname : name ∈ markerNames) :
    pair? (name ++ ":true") = some (name, "true") :=
  (by decide +kernel : ∀ name ∈ markerNames, pair? (name ++ ":true") = some (name, "true")) name
    hname

theorem trim_mark {name : String} (hname : name ∈ markerNames) :
    Text.trim (name ++ ":true") = name ++ ":true" :=
  (by decide +kernel : ∀ name ∈ markerNames, Text.trim (name ++ ":true") = name ++ ":true") name
    hname

theorem Transaction.completedMark_eq : completedMark = "completed" ++ ":true" := by decide +kernel

theorem Transaction.reversedMark_eq : reversedMark = "reversed" ++ ":true" := by decide +kernel

/-- The mark is among the tags if and only if the last tag under its key says true. -/
def Tags.MarksPlainly (s : Tags) (name : String) : Prop :=
  name ++ ":true" ∈ s ↔ ∃ text, s.get? name = some text ∧ saysTrue text = true

namespace TagMap

variable {wanted : TagKey → Bool} {s : Tags} {m : TagMap} {name : String}
  (h : ofTags wanted s = .ok m) (hname : name ∈ markerNames)

include h hname

/-- A flag is set in the view if the last tag under its key says true. -/
theorem flag_iff :
    m.flag (.ofName name) = true ↔ ∃ text, s.get? name = some text ∧ saysTrue text = true := by
  have hlimit : name ∉ limitNames :=
    (by decide +kernel : ∀ name ∈ markerNames, name ∉ limitNames) name hname
  rw [flag, decide_eq_true_eq, get?_ofTags_eq h, Option.map_eq_some_iff]
  simp only [typedValue, if_neg hlimit, if_pos hname, TagValue.flag.injEq]

theorem mark_eq_flag_iff :
    decide (name ++ ":true" ∈ s) = m.flag (.ofName name) ↔ s.MarksPlainly name := by
  rw [Bool.eq_iff_iff, decide_eq_true_eq, flag_iff h hname, Tags.MarksPlainly]

end TagMap

section Transaction

variable {t : Transaction} {wanted : TagKey → Bool} {m : TagMap}
  (h : TagMap.ofTags wanted t.tags = .ok m)

include h

theorem Transaction.isCompleted_eq_flag_iff :
    t.isCompleted = m.flag .completed ↔ t.tags.MarksPlainly "completed" := by
  rw [isCompleted, completedMark_eq]
  exact TagMap.mark_eq_flag_iff h (by decide)

theorem Transaction.isReversed_eq_flag_iff :
    t.isReversed = m.flag .reversed ↔ t.tags.MarksPlainly "reversed" := by
  rw [isReversed, reversedMark_eq]
  exact TagMap.mark_eq_flag_iff h (by decide)

end Transaction

/-! ## Nothing but the mark -/

namespace Tags

/-- Nothing but the mark stands under its key. -/
def HasOnlyMark (s : Tags) (name : String) : Prop :=
  ∀ t ∈ s, ∀ value, pair? t = some (name, value) → t = name ++ ":true"

variable {s : Tags} {name : String}

theorem hasOnlyMark_of_none (h : s.get? name = none) : s.HasOnlyMark name :=
  fun t ht value hp => absurd hp (get?_eq_none.1 h t ht value)

theorem mark_not_mem_of_none (h : s.get? name = none) (hname : name ∈ markerNames) :
    name ++ ":true" ∉ s :=
  fun hmem => get?_eq_none.1 h _ hmem _ (pair?_mark hname)

theorem HasOnlyMark.marksPlainly (h : s.HasOnlyMark name) (hname : name ∈ markerNames) :
    s.MarksPlainly name := by
  constructor
  · intro hmem
    obtain ⟨text, htext⟩ : ∃ text, s.get? name = some text :=
      Option.ne_none_iff_exists'.1 fun hnone => mark_not_mem_of_none hnone hname hmem
    obtain ⟨t, ht, hp⟩ := exists_of_get? htext
    rw [h t ht text hp, pair?_mark hname] at hp
    obtain rfl : "true" = text := congrArg Prod.snd (Option.some.inj hp)
    exact ⟨_, htext, by decide⟩
  · rintro ⟨text, htext, -⟩
    obtain ⟨t, ht, hp⟩ := exists_of_get? htext
    rwa [← h t ht text hp]

/-- A mark can be added, under this key or under another. -/
theorem HasOnlyMark.add_mark (h : s.HasOnlyMark name) {other : String}
    (hother : other ∈ markerNames) : (s.add (other ++ ":true")).HasOnlyMark name := by
  intro t ht value hp
  rcases mem_add.1 ht with ht | ⟨rfl, -⟩
  · exact h t ht value hp
  · rw [trim_mark hother] at hp ⊢
    rw [pair?_mark hother] at hp
    obtain rfl : other = name := congrArg Prod.fst (Option.some.inj hp)
    rfl

end Tags

/-! ## The reading that the service goes by -/

namespace LedgerService

variable {s : LedgerService} {t : Transaction} {reference : String} {lookup : BalanceLookup}

theorem complete_eq_alreadyCompleted :
    (s.complete t reference lookup).1 = .ok .alreadyCompleted ↔ t.isCompleted = true := by
  refine ⟨fun h => ?_, fun h => by rw [complete_of_completed h]⟩
  by_contra hopen
  rw [complete_of_not_completed (by simpa using hopen)] at h
  split at h <;> cases h

theorem reverse_eq_alreadyReversed :
    (s.reverse t reference lookup).1 = .ok .alreadyReversed ↔ t.isReversed = true := by
  refine ⟨fun h => ?_, fun h => by rw [reverse_of_reversed h]⟩
  by_contra hopen
  rw [reverse, if_neg hopen] at h
  split at h <;> cases h

end LedgerService

/-! ## Marks of the service -/

theorem Transaction.isCompleted_tag_reversed (t : Transaction) :
    (t.tag reversedMark).isCompleted = t.isCompleted := by
  have hne : completedMark ≠ Text.trim reversedMark := by decide +kernel
  rw [isCompleted, isCompleted, tags_tag]
  exact decide_eq_decide.2 (Tags.mem_add.trans (or_iff_left fun h => hne h.1))

theorem Transaction.isReversed_tag_completed (t : Transaction) :
    (t.tag completedMark).isReversed = t.isReversed := by
  have hne : reversedMark ≠ Text.trim completedMark := by decide +kernel
  rw [isReversed, isReversed, tags_tag]
  exact decide_eq_decide.2 (Tags.mem_add.trans (or_iff_left fun h => hne h.1))

/-- No key of metadata is shown as the key of a mark. -/
def Metadata.LeavesMarks (metadata : Metadata) : Prop :=
  ∀ kv ∈ metadata.toList, shownKey kv.1 ≠ "completed" ∧ shownKey kv.1 ≠ "reversed"

instance (metadata : Metadata) : Decidable metadata.LeavesMarks :=
  inferInstanceAs (Decidable (∀ _ ∈ _, _))

/-- A created transaction has no tag under a key that metadata leave alone. -/
theorem IsDraft.get?_eq_none {s : LedgerService} {request : TransactionRequest} {chart : Chart}
    {t : Transaction} {strategy : Strategy} {plans : List EntryPlan}
    (hd : IsDraft s request chart t strategy plans) {name : String} (hname : name ∈ markerNames)
    (hkeys : ∀ kv ∈ request.metadata.toList, shownKey kv.1 ≠ name) : t.tags.get? name = none := by
  obtain ⟨htype, hgroup⟩ :=
    (by decide +kernel : ∀ name ∈ markerNames, "type" ≠ name ∧ "group" ≠ name) name hname
  rw [hd.tags, Tags.get?_add_of_ne (by simpa [pair?_typeTag] using htype),
    Tags.get?_add_of_ne (by simpa [pair?_groupTag] using hgroup)]
  exact Metadata.get?_tags_eq_none.2 hkeys

/-- The marks of a transaction stand alone under their keys and say what was returned for it. -/
structure Life.IsMarkedByCalls (life : Life) : Prop where
  onlyCompleted : life.current.tags.HasOnlyMark "completed"
  onlyReversed : life.current.tags.HasOnlyMark "reversed"
  completed : life.current.isCompleted = true ↔ life.completions ≠ []
  reversed : life.current.isReversed = true ↔ life.reversals ≠ []

namespace Life.IsMarkedByCalls

theorem new {t : Transaction} (hcompleted : t.tags.get? "completed" = none)
    (hreversed : t.tags.get? "reversed" = none) : (⟨t, [], []⟩ : Life).IsMarkedByCalls where
  onlyCompleted := Tags.hasOnlyMark_of_none hcompleted
  onlyReversed := Tags.hasOnlyMark_of_none hreversed
  completed := by
    have hopen := Tags.mark_not_mem_of_none hcompleted (by decide)
    rw [← Transaction.completedMark_eq] at hopen
    exact iff_of_false (fun h => hopen (of_decide_eq_true h)) fun h => h rfl
  reversed := by
    have hopen := Tags.mark_not_mem_of_none hreversed (by decide)
    rw [← Transaction.reversedMark_eq] at hopen
    exact iff_of_false (fun h => hopen (of_decide_eq_true h)) fun h => h rfl

/-- **Every call leaves marks that say what was returned.** -/
theorem step {s : LedgerService} {life : Life} (h : life.IsMarkedByCalls) (call : LifeCall) :
    (s.liveStep life call).IsMarkedByCalls := by
  rcases s.liveStep_cases life call with hstep | ⟨_, _, c, -, hstep⟩ | ⟨_, _, r, -, hstep⟩
  · rwa [hstep]
  · rw [hstep]
    refine ⟨?_, ?_, iff_of_true Transaction.isCompleted_tag (by simp), ?_⟩
    · rw [Transaction.tags_tag, Transaction.completedMark_eq]
      exact h.onlyCompleted.add_mark (by decide)
    · rw [Transaction.tags_tag, Transaction.completedMark_eq]
      exact h.onlyReversed.add_mark (by decide)
    · rw [Transaction.isReversed_tag_completed]
      exact h.reversed
  · rw [hstep]
    refine ⟨?_, ?_, ?_, iff_of_true Transaction.isReversed_tag (by simp)⟩
    · rw [Transaction.tags_tag, Transaction.reversedMark_eq]
      exact h.onlyCompleted.add_mark (by decide)
    · rw [Transaction.tags_tag, Transaction.reversedMark_eq]
      exact h.onlyReversed.add_mark (by decide)
    · rw [Transaction.isCompleted_tag_reversed]
      exact h.completed

theorem live {s : LedgerService} {request : TransactionRequest} {chart : Chart}
    {lookup : BalanceLookup} {t : Transaction} (hcreate : s.create request chart lookup = .ok t)
    (hmetadata : request.metadata.LeavesMarks) (calls : List LifeCall) :
    (s.live t calls).IsMarkedByCalls := by
  obtain ⟨-, strategy, plans, hd⟩ := LedgerService.exists_isDraft_of_create hcreate
  have hnew : (⟨t, [], []⟩ : Life).IsMarkedByCalls :=
    new (hd.get?_eq_none (by decide) fun kv hkv => (hmetadata kv hkv).1)
      (hd.get?_eq_none (by decide) fun kv hkv => (hmetadata kv hkv).2)
  have hfold : ∀ life : Life, life.IsMarkedByCalls →
      (calls.foldl s.liveStep life).IsMarkedByCalls := by
    induction calls with
    | nil => exact fun life h => h
    | cons call calls ih => exact fun life h => ih _ (h.step call)
  exact hfold _ hnew

end Life.IsMarkedByCalls

/-! ## The main result -/

/-- **When the two readings of the marks agree.** Let the tags of a transaction have a typed view.
The service and the view agree on whether it is completed exactly if the mark is among the tags
when the last tag under its key says true and only then, in particular if nothing else stands under
the key; and the same for reversed. Then the service completes or reverses the transaction, alone
or in a group, only if the view says that it did not, and takes it for done only if the view says
that it did. For a transaction that was created from metadata that leave the two keys alone they
always agree, whatever calls were made about it, and the view says which of them succeeded. -/
theorem marks_read_alike_iff {t : Transaction} {wanted : TagKey → Bool} {m : TagMap}
    (h : TagMap.ofTags wanted t.tags = .ok m) :
    (t.isCompleted = m.flag .completed ↔ t.tags.MarksPlainly "completed") ∧
    (t.isReversed = m.flag .reversed ↔ t.tags.MarksPlainly "reversed") ∧
    (t.tags.HasOnlyMark "completed" → t.tags.MarksPlainly "completed") ∧
    (t.tags.HasOnlyMark "reversed" → t.tags.MarksPlainly "reversed") ∧
    (t.tags.MarksPlainly "completed" → ∀ s reference lookup,
      (LedgerService.complete s t reference lookup).1 = .ok .alreadyCompleted ↔
        m.flag .completed = true) ∧
    (t.tags.MarksPlainly "reversed" → ∀ s reference lookup,
      ((LedgerService.reverse s t reference lookup).1 = .ok .alreadyReversed ↔
        m.flag .reversed = true) ∧
      ∀ group references, t ∈ group →
        (∀ rs, (s.reverseGroup reference group references lookup).1 = .ok (.reversed rs) →
          m.flag .reversed = false) ∧
        ((s.reverseGroup reference group references lookup).1 = .ok .alreadyReversed →
          m.flag .reversed = true)) ∧
    ∀ (s : LedgerService) (request : TransactionRequest) (chart : Chart) (lookup : BalanceLookup)
      (created : Transaction) (calls : List LifeCall),
      s.create request chart lookup = .ok created → request.metadata.LeavesMarks →
      t = (s.live created calls).current →
        t.tags.MarksPlainly "completed" ∧ t.tags.MarksPlainly "reversed" ∧
        (m.flag .completed = true ↔ (s.live created calls).completions ≠ []) ∧
        (m.flag .reversed = true ↔ (s.live created calls).reversals ≠ []) := by
  have hcompleted := Transaction.isCompleted_eq_flag_iff h
  have hreversed := Transaction.isReversed_eq_flag_iff h
  refine ⟨hcompleted, hreversed, fun honly => honly.marksPlainly (by decide),
    fun honly => honly.marksPlainly (by decide), fun hplain s reference lookup => ?_,
    fun hplain s reference lookup => ⟨?_, fun group references ht =>
      ⟨fun rs hgroup => ?_, fun hgroup => ?_⟩⟩, ?_⟩
  · rw [LedgerService.complete_eq_alreadyCompleted, hcompleted.2 hplain]
  · rw [LedgerService.reverse_eq_alreadyReversed, hreversed.2 hplain]
  · obtain ⟨-, hopen, -⟩ := LedgerService.of_reverseGroup_eq_reversed (Prod.ext hgroup rfl)
    rw [← hreversed.2 hplain]
    exact hopen t ht
  · obtain ⟨-, hall⟩ := LedgerService.reverseGroup_eq_alreadyReversed.1 hgroup
    rw [← hreversed.2 hplain]
    exact hall t ht
  · rintro s request chart lookup created calls hcreate hmetadata rfl
    have hmarked := Life.IsMarkedByCalls.live hcreate hmetadata calls
    have hplain := hmarked.onlyCompleted.marksPlainly (by decide)
    have hplain' := hmarked.onlyReversed.marksPlainly (by decide)
    refine ⟨hplain, hplain', ?_, ?_⟩
    · rw [← hcompleted.2 hplain]
      exact hmarked.completed
    · rw [← hreversed.2 hplain']
      exact hmarked.reversed

open SmallLedger in
/-- A deposit that was completed, with a second try, and not reversed. -/
theorem marks_read_alike_iff_smallLedger : ∃ created m,
    service.create (deposit 40) chart silent = .ok created ∧ (deposit 40).metadata.LeavesMarks ∧
    let life := service.live created [.complete "T2" silent, .complete "T3" silent]
    TagMap.ofTags (fun _ => true) life.current.tags = .ok m ∧ life.completions.length = 1 ∧
    m.flag .completed = true ∧ m.flag .reversed = false ∧
    life.current.tags.MarksPlainly "completed" ∧ life.current.tags.MarksPlainly "reversed" ∧
    (service.complete life.current "T4" spent).1 = .ok .alreadyCompleted := by
  let life (created : Transaction) :=
    service.live created [.complete "T2" silent, .complete "T3" silent]
  obtain ⟨created, hcreated, h⟩ := bind_eq_ok.1 (by decide +kernel : (do
    let created ← service.create (deposit 40) chart silent
    let _ ← orError (TagMap.ofTags (fun _ => true) (life created).current.tags)
    return decide ((life created).completions.length = 1 ∧ (life created).reversals.length = 0)) =
      (.ok true : Except Failure Bool))
  obtain ⟨m, hm, h⟩ := bind_eq_ok.1 h
  obtain ⟨hone, hnone⟩ := of_decide_eq_true (Except.ok.inj h)
  have hmetadata : (deposit 40).metadata.LeavesMarks := by decide +kernel
  obtain ⟨-, -, -, -, hcomplete, -, hcreate⟩ := marks_read_alike_iff (orError_eq_ok.1 hm)
  obtain ⟨hplain, hplain', hcompletions, hreversals⟩ :=
    hcreate service _ chart silent created _ hcreated hmetadata rfl
  have hflag : m.flag .completed = true :=
    hcompletions.2 fun hnil => by rw [hnil] at hone; cases hone
  have hflag' : m.flag .reversed = false :=
    Bool.eq_false_iff.2 fun hflag => hreversals.1 hflag (List.eq_nil_of_length_eq_zero hnone)
  exact ⟨created, m, hcreated, hmetadata, orError_eq_ok.1 hm, hone, hflag, hflag', hplain, hplain',
    (hcomplete hplain service "T4" spent).2 hflag⟩

open SmallLedger in
/-- A deposit with a mark in capitals is completed, though the view says that it was completed
before. A mark with a later tag under its key is a mark for the service alone. -/
theorem marks_read_differently :
    (∃ t m c t', TagMap.ofTags (fun _ => true) t.tags = .ok m ∧ m.flag .completed = true ∧
      service.complete t "T2" silent = (.ok (.completed c), t')) ∧
    (¬∀ (t : Transaction) (m : TagMap), TagMap.ofTags (fun _ => true) t.tags = .ok m →
      t.isCompleted = m.flag .completed) ∧
    ¬∀ (t : Transaction) (m : TagMap), TagMap.ofTags (fun _ => true) t.tags = .ok m →
      t.isReversed = m.flag .reversed := by
  obtain ⟨created, -, h⟩ := bind_eq_ok.1 (by decide +kernel : (do
    let created ← service.create (deposit 40) chart silent
    let m ← orError (TagMap.ofTags (fun _ => true) (created.tag "completed:TRUE").tags)
    let _ ← service.approve silent (service.completionDraft (created.tag "completed:TRUE") "T2")
    return decide (m.flag .completed = true ∧
      (created.tag "completed:TRUE").isCompleted = false)) = (.ok true : Except Failure Bool))
  obtain ⟨m, hm, h⟩ := bind_eq_ok.1 h
  obtain ⟨c, hc, h⟩ := bind_eq_ok.1 h
  obtain ⟨hflag, hopen⟩ := of_decide_eq_true (Except.ok.inj h)
  refine ⟨⟨_, m, c, _, orError_eq_ok.1 hm, hflag,
    LedgerService.complete_eq_completed.2 ⟨hopen, hc, rfl⟩⟩, fun hall => ?_, fun hall => ?_⟩
  · have hsame := hall _ m (orError_eq_ok.1 hm)
    rw [hopen, hflag] at hsame
    cases hsame
  · let t := Transaction.start journal "T1" (.ofList ["reversed:true", "reversed:false"])
    obtain ⟨m, hm, hflag⟩ := map_eq_ok.1 (by decide +kernel :
      (TagMap.ofTags (fun _ => true) t.tags).map (·.flag .reversed) = .ok false)
    have hsame := hall t m hm
    rw [hflag] at hsame
    exact absurd hsame (by decide +kernel)

end LayeredLedger
