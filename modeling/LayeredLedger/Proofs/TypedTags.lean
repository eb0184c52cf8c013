import LayeredLedger.Proofs.LimitRules

/-!
# Typed tags

The typed view of tags is made in one pass that writes over what it has under a key. It holds what
a lookup of the last tag finds, since two names never stand for one key. Only failure depends on
every tag: a wanted limit that is no decimal is refused even if a later tag overrides it.

* `limitNames`, `markerNames`, `typedValue`: what a text under a key stands for;
* `TagMap.Refuses`: a wanted limit that is no decimal;
* `readTagValue_eq`: one value is refused or read;
* `TagMap.ofTags_eq_error_iff`: the first tag that is refused is the error;
* `TagMap.get?_ofTags_eq`: the view holds the last value under every key;
* `TagMap.ofTags_congr`: only the limits that are wanted make a difference;
* **`typed_view_is_last_wins`**: all of it.
-/

namespace LayeredLedger

/-! ## Values -/

/-- The keys under which values are decimals. -/
def limitNames : List String := ["daily_limit", "cumulative_limit", "fee_limit"]

/-- The keys under which values are flags. -/
def markerNames : List String := ["completed", "reversed", "skip_limits"]

/-- What a text under a key stands for. A limit that is no decimal stays a text. -/
def typedValue (name text : String) : TagValue :=
  if name ∈ limitNames then
    match Decimal.parse? text with
    | some amount => .decimal amount
    | none => .text text
  else if name ∈ markerNames then .flag (saysTrue text)
  else .text text

/-- Keys of one kind are those with the names of that kind. -/
theorem ofName_iff_mem {kind : TagKey → Bool} {names : List String}
    (hnames : ∀ name ∈ names, kind (.ofName name) = true)
    (hkind : ∀ key, kind key = true → key.name ∈ names) {name : String} :
    kind (.ofName name) = true ↔ name ∈ names := by
  refine ⟨fun h => ?_, hnames name⟩
  have hmem := hkind _ h
  rwa [TagKey.name_ofName] at hmem

theorem isLimit_ofName {name : String} :
    (TagKey.ofName name).isLimit = true ↔ name ∈ limitNames :=
  ofName_iff_mem (by decide) fun key h => by
    cases key <;> simp_all [TagKey.isLimit, TagKey.name, limitNames]

theorem isMarker_ofName {name : String} :
    (TagKey.ofName name).isMarker = true ↔ name ∈ markerNames :=
  ofName_iff_mem (by decide) fun key h => by
    cases key <;> simp_all [TagKey.isMarker, TagKey.name, markerNames]

namespace TagMap

variable {wanted wanted' : TagKey → Bool} {s : Tags}

/-- The pair has a limit that is wanted, and its value is no decimal. -/
def Refuses (wanted : TagKey → Bool) (pair : String × String) : Prop :=
  pair.1 ∈ limitNames ∧ wanted (.ofName pair.1) = true ∧ Decimal.parse? pair.2 = none

theorem isUnreadable_iff {pair : String × String} :
    isUnreadable wanted pair = true ↔ Refuses wanted pair := by
  simp only [isUnreadable, decide_eq_true_eq, isLimit_ofName, Refuses]

/-- A value is refused or read as its key asks for. -/
theorem readTagValue_eq (wanted : TagKey → Bool) (name text : String) :
    readTagValue wanted name text =
      if isUnreadable wanted (name, text) then .error (.invalidLimitTag name text)
      else .ok (typedValue name text) := by
  unfold readTagValue typedValue isUnreadable
  simp only [← isLimit_ofName, ← isMarker_ofName]
  by_cases hlimit : (TagKey.ofName name).isLimit = true
  · cases hparse : Decimal.parse? text with
    | some amount => simp [hlimit]
    | none => simp [hlimit]
  · by_cases hmarker : (TagKey.ofName name).isMarker = true <;> simp [hlimit, hmarker]

/-! ## Failure -/

/-- Tags are refused for the first of them that is. -/
theorem ofTags_eq_error_iff {e : LedgerError} : ofTags wanted s = .error e ↔
    ∃ before p after, s.pairs = before ++ p :: after ∧ (∀ q ∈ before, ¬Refuses wanted q) ∧
      Refuses wanted p ∧ e = .invalidLimitTag p.1 p.2 := by
  have hfirst : ∀ p, s.pairs.find? (isUnreadable wanted) = some p ↔ ∃ before after,
      s.pairs = before ++ p :: after ∧ (∀ q ∈ before, ¬Refuses wanted q) ∧ Refuses wanted p := by
    intro p
    rw [List.find?_eq_some_iff_append, isUnreadable_iff]
    simp only [Bool.not_eq_true', ← Bool.not_eq_true, isUnreadable_iff]
    exact ⟨fun ⟨hp, before, after, hs, hbefore⟩ => ⟨before, after, hs, hbefore, hp⟩,
      fun ⟨before, after, hs, hbefore, hp⟩ => ⟨hp, before, after, hs, hbefore⟩⟩
  rcases ofTags_cases wanted s with ⟨p, hp, herror⟩ | ⟨hnone, m, hm⟩
  · rw [herror]
    constructor
    · rintro ⟨⟩
      obtain ⟨before, after, hs, hbefore, hrefuses⟩ := (hfirst p).1 hp
      exact ⟨before, p, after, hs, hbefore, hrefuses, rfl⟩
    · rintro ⟨before, q, after, hs, hbefore, hrefuses, rfl⟩
      have hq := (hfirst q).2 ⟨before, after, hs, hbefore, hrefuses⟩
      rw [Option.some.inj (hp.symm.trans hq)]
  · rw [hm]
    refine ⟨nofun, ?_⟩
    rintro ⟨before, q, after, hs, hbefore, hrefuses, -⟩
    rw [(hfirst q).2 ⟨before, after, hs, hbefore, hrefuses⟩] at hnone
    cases hnone

theorem exists_ofTags_error_iff :
    (∃ e, ofTags wanted s = .error e) ↔ ∃ p ∈ s.pairs, Refuses wanted p := by
  constructor
  · rintro ⟨e, he⟩
    obtain ⟨before, p, after, hs, -, hrefuses, -⟩ := ofTags_eq_error_iff.1 he
    exact ⟨p, by simp [hs], hrefuses⟩
  · rintro ⟨p, hp, hrefuses⟩
    rcases ofTags_cases wanted s with ⟨q, -, herror⟩ | ⟨hnone, -⟩
    · exact ⟨_, herror⟩
    · exact absurd (isUnreadable_iff.2 hrefuses) (List.find?_eq_none.1 hnone p hp)

/-! ## Values that are held -/

/-- The view holds the last value under every key, and nothing under a key without a value. -/
theorem get?_ofTags_eq {m : TagMap} (h : ofTags wanted s = .ok m) (key : String) :
    m.get? (.ofName key) = (s.get? key).map (typedValue key) := by
  cases hs : s.get? key with
  | none => rw [get?_ofTags_eq_none h hs, Option.map_none]
  | some text =>
    obtain ⟨v, hv, hget⟩ := get?_ofTags h hs
    rw [readTagValue_eq] at hv
    split at hv
    · cases hv
    · obtain rfl := Except.ok.inj hv
      rw [hget, Option.map_some]

/-- Only the limits that are wanted make a difference. -/
theorem ofTags_congr (h : ∀ name ∈ limitNames, wanted (.ofName name) = wanted' (.ofName name)) :
    ofTags wanted s = ofTags wanted' s := by
  have hput : putPair wanted = putPair wanted' := by
    funext m p
    have hsame : isUnreadable wanted p = isUnreadable wanted' p := by
      rw [Bool.eq_iff_iff, isUnreadable_iff, isUnreadable_iff]
      exact and_congr_right fun hlimit => by rw [h p.1 hlimit]
    rw [putPair, putPair, readTagValue_eq, readTagValue_eq, hsame]
  rw [ofTags, ofTags, hput]

end TagMap

/-! ## The main result -/

/-- **The typed view of tags is their last-wins reading.** It is refused if and only if some tag
under a wanted key has a limit that is no decimal, and the error names the first of these, also if
a later tag overrides it. Otherwise the view holds under every key what the last tag with this key
says, read as the key asks for, and nothing if no tag has the key. If the keys of all limits are
wanted it is the same view as if every key were. -/
theorem typed_view_is_last_wins (wanted : TagKey → Bool) (s : Tags) :
    ((∃ e, TagMap.ofTags wanted s = .error e) ↔ ∃ p ∈ s.pairs, TagMap.Refuses wanted p) ∧
    (∀ e, TagMap.ofTags wanted s = .error e ↔ ∃ before p after,
      s.pairs = before ++ p :: after ∧ (∀ q ∈ before, ¬TagMap.Refuses wanted q) ∧
        TagMap.Refuses wanted p ∧ e = .invalidLimitTag p.1 p.2) ∧
    (∀ m, TagMap.ofTags wanted s = .ok m → ∀ key,
      m.get? (.ofName key) = (s.get? key).map (typedValue key)) ∧
    ((∀ name ∈ limitNames, wanted (.ofName name) = true) →
      TagMap.ofTags wanted s = TagMap.ofTags (fun _ => true) s) :=
  ⟨TagMap.exists_ofTags_error_iff, fun _ => TagMap.ofTags_eq_error_iff,
    fun _ => TagMap.get?_ofTags_eq, fun hall => TagMap.ofTags_congr hall⟩

/-- Limits and flags that are overridden, and a limit that is no decimal: it stays a text as long
as nobody wants it. -/
theorem typed_view_is_last_wins_overridden :
    let s := Tags.ofList ["fee_limit:abc", "daily_limit:1", "skip_limits:no", "daily_limit: 2.50",
      "skip_limits:TRUE", "group:P2P"]
    (∃ m, TagMap.ofTags (· = .dailyLimit) s = .ok m ∧
      m.get? (.ofName "daily_limit") = (Decimal.parse? "2.50").map .decimal ∧
      m.get? (.ofName "fee_limit") = some (.text "abc") ∧
      m.get? (.ofName "skip_limits") = some (.flag true) ∧
      m.get? (.ofName "group") = some (.text "P2P") ∧ m.get? (.ofName "type") = none) ∧
    TagMap.ofTags (·.isLimit) s = .error (.invalidLimitTag "fee_limit" "abc") ∧
    TagMap.ofTags (·.isLimit) s = TagMap.ofTags (fun _ => true) s := by
  intro s
  obtain ⟨herror, -, hget, -⟩ := typed_view_is_last_wins (· = .dailyLimit) s
  obtain ⟨-, hfirst, -, hall⟩ := typed_view_is_last_wins (·.isLimit) s
  obtain ⟨m, hm⟩ : ∃ m, TagMap.ofTags (· = .dailyLimit) s = .ok m := by decide +kernel
  refine ⟨⟨m, hm, ?_⟩, (hfirst _).2 ?_, hall (by decide)⟩
  · simp only [hget m hm]
    decide +kernel
  · exact ⟨[], ("fee_limit", "abc"), s.pairs.tail, by decide +kernel, by simp,
      ⟨by decide, by decide, by decide +kernel⟩, rfl⟩

end LayeredLedger
