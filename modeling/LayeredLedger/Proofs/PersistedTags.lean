import LayeredLedger.Proofs.Completion
import LayeredLedger.Proofs.SmallLedger
import LayeredLedger.Proofs.Wire

/-!
# What is read back under a key

The tags of a transaction are kept as one text, in which the values of metadata stand next to the
tags of the ledger. A value can hold commas, backslashes, colons and line breaks, but it is read
back as the value of its own key. The tags for group and type come last, so metadata do not
replace them.

* `Metadata.KeysAreClean`: keys without colons and without blanks at their ends;
* `Metadata.KeysAreClean.get?_tags`, `Metadata.KeysAreClean.get?_of_mem`: the tags of metadata;
* `Tags.get?_add_pair`: one more tag answers its key;
* `IsDraft.get?_tags`: the tags of a created transaction, by key;
* **`get?_persisted`**: what the tags that were kept answer.
-/

namespace LayeredLedger

/-! ## One more tag -/

namespace Tags

/-- One more text to tags that answer its key with the value of every tag that has the key. -/
theorem get?_add_pair {s : Tags} {text k value : String} (hp : pair? text = some (k, value))
    (hs : ∀ t ∈ s, ∀ v, pair? t = some (k, v) → s.get? k = some v) (key : String) :
    (s.add text).get? key = if key = k then some value else s.get? key := by
  by_cases h : key = k
  · rw [if_pos h, h]
    exact get?_add_self_of_mem hp fun hmem => hs _ hmem value (by rw [pair?_trim, hp])
  · rw [if_neg h, get?_add_of_ne (by simpa [hp] using Ne.symm h)]

end Tags

/-! ## Clean keys -/

theorem shownKey_eq {key : String} (hcolon : ':' ∉ key.toList) (htrim : Text.trim key = key) :
    shownKey key = key := by
  have h : key.toList.takeWhile (· ≠ ':') = key.toList :=
    List.takeWhile_eq_self_iff.2 fun c hc => decide_eq_true fun e => hcolon (e ▸ hc)
  rw [shownKey, h, String.ofList_toList, htrim]

namespace Metadata

/-- No key has a colon, or blanks at its ends. Nothing is asked of the values. -/
def KeysAreClean (m : Metadata) : Prop :=
  ∀ kv ∈ m.toList, ':' ∉ kv.1.toList ∧ Text.trim kv.1 = kv.1

instance (m : Metadata) : Decidable m.KeysAreClean := inferInstanceAs (Decidable (∀ _ ∈ _, _))

theorem value?_of_mem {m : Metadata} {kv : String × String} (h : kv ∈ m.toList) :
    m.value? kv.1 = some kv.2 := by
  have hget : m.get? kv.1 = some kv := Keyed.get?_eq_some_iff.2 ⟨h, rfl⟩
  rw [value?, hget, Option.map_some]

variable {m : Metadata} (hm : m.KeysAreClean)

include hm

/-- The tags answer a key with its value, without the blanks around it. -/
theorem KeysAreClean.get?_tags (key : String) :
    (metadataTags m).get? key = (m.value? key).map Text.trim := by
  have hshown : ∀ kv ∈ m.toList, shownKey kv.1 = kv.1 := fun kv hkv =>
    shownKey_eq (hm kv hkv).1 (hm kv hkv).2
  cases hvalue : m.value? key with
  | some value =>
    obtain ⟨kv, hkv, -⟩ := Option.map_eq_some_iff.1 hvalue
    obtain ⟨hmem, rfl⟩ := Keyed.get?_eq_some_iff.1 hkv
    exact m.get?_tags hvalue (hm kv hmem).1 (hm kv hmem).2 fun kv' hkv' e => hshown kv' hkv' ▸ e
  | none =>
    refine get?_tags_eq_none.2 fun kv hkv e => ?_
    obtain rfl : kv.1 = key := hshown kv hkv ▸ e
    rw [value?_of_mem hkv] at hvalue
    cases hvalue

/-- There is one tag for every key, so each of them is what its key answers. -/
theorem KeysAreClean.get?_of_mem {t key value : String} (ht : t ∈ metadataTags m)
    (hp : pair? t = some (key, value)) : (metadataTags m).get? key = some value := by
  obtain ⟨text, htext, rfl, -⟩ := Tags.mem_ofList.1 ht
  obtain ⟨⟨k, v⟩, hkv, rfl⟩ := List.mem_map.1 htext
  have hclean := hm _ hkv
  rw [pair?_trim, pair?_append v (by simp) hclean.1 hclean.2] at hp
  obtain ⟨rfl, rfl⟩ := Prod.mk.inj (Option.some.inj hp)
  rw [hm.get?_tags, value?_of_mem hkv, Option.map_some]

end Metadata

/-! ## The tags of a transaction -/

/-- The tags of a created transaction answer with its group and its type, and all other keys as
the metadata do. -/
theorem IsDraft.get?_tags {s : LedgerService} {request : TransactionRequest} {chart : Chart}
    {t : Transaction} {strategy : Strategy} {plans : List EntryPlan}
    (hd : IsDraft s request chart t strategy plans) (hm : request.metadata.KeysAreClean)
    (key : String) : t.tags.get? key =
      if key = "type" then some (Text.trim request.shape.type)
      else if key = "group" then some (Text.trim request.shape.group.name)
      else (request.metadata.value? key).map Text.trim := by
  have hgroup := Tags.get?_add_pair (pair?_groupTag request.shape.group.name)
    fun _ ht _ => hm.get?_of_mem ht
  -- the tag for the group has another key, so under type there is only what metadata have
  have htype : ∀ x ∈ (metadataTags request.metadata).add ("group:" ++ request.shape.group.name),
      ∀ v, pair? x = some ("type", v) →
        ((metadataTags request.metadata).add ("group:" ++ request.shape.group.name)).get? "type" =
          some v := by
    intro x hx v hv
    rw [hgroup, if_neg (by decide)]
    rcases Tags.mem_add.1 hx with hx | ⟨rfl, -⟩
    · exact hm.get?_of_mem hx hv
    · simp [pair?_groupTag] at hv
  rw [hd.tags, Tags.get?_add_pair (pair?_typeTag request.shape.type) htype, hgroup, hm.get?_tags]

/-- **No value is read back under a key that is not its own.** Let a transaction be created from
metadata whose keys are clean, with any values. Its tags, written down and read again, answer
group and type as the request has them, even if the metadata have these keys too, and every other
key with the value of the metadata, or with nothing if the metadata do not have the key. -/
theorem get?_persisted {s : LedgerService} {request : TransactionRequest} {chart : Chart}
    {lookup : BalanceLookup} {t : Transaction} (h : s.create request chart lookup = .ok t)
    (hm : request.metadata.KeysAreClean) (key : String) :
    (Tags.ofWire t.tags.toWire).get? key =
      if key = "type" then some (Text.trim request.shape.type)
      else if key = "group" then some (Text.trim request.shape.group.name)
      else (request.metadata.value? key).map Text.trim := by
  obtain ⟨-, strategy, plans, hd⟩ := LedgerService.exists_isDraft_of_create h
  rw [Tags.ofWire_toWire, hd.get?_tags hm]

open SmallLedger in
/-- A value that looks like more tags, and metadata that set the group and the type. -/
theorem get?_persisted_smallLedger : ∃ t,
    service.create { payment 40 with metadata := .ofList [("note", " a,daily_limit:9\n\\"),
      ("group", "P2P"), ("type", "FEE"), ("daily_limit", "1000")] } chart spent = .ok t ∧
    (Tags.ofWire t.tags.toWire).get? "note" = some "a,daily_limit:9\n\\" ∧
    (Tags.ofWire t.tags.toWire).get? "group" = some "P2P" ∧
    (Tags.ofWire t.tags.toWire).get? "type" = some "TRANSFER" ∧
    (Tags.ofWire t.tags.toWire).get? "daily_limit" = some "1000" ∧
    (Tags.ofWire t.tags.toWire).get? "fee_limit" = none := by
  obtain ⟨t, ht, -⟩ := bind_eq_ok.1 (by decide +kernel : (do
    let _ ← service.create { payment 40 with metadata := .ofList [
      ("note", " a,daily_limit:9\n\\"), ("group", "P2P"), ("type", "FEE"),
      ("daily_limit", "1000")] } chart spent
    return true) = (.ok true : Except Failure Bool))
  have hget := get?_persisted ht (by decide +kernel)
  exact ⟨t, ht, by rw [hget]; decide +kernel, by rw [hget]; decide +kernel,
    by rw [hget]; decide +kernel, by rw [hget]; decide +kernel, by rw [hget]; decide +kernel⟩

end LayeredLedger
