import LayeredLedger.Proofs.Completion
import LayeredLedger.Proofs.Footprint
import LayeredLedger.Proofs.SmallLedger

/-!
# Bridges that a chart lists

An account takes the place of the account with its code, and a bridge also takes the place of the
bridge of its currency and part. So both lookups find what was added last, but they go by different
keys: an account that takes over the code of a bridge, and is no bridge of the same currency and
part itself, leaves the bridge where it is found by currency and part. The chart does not list this
bridge any more, and still transactions and resets post to it.

* `Chart.bridge?_add`, `Chart.account?_ofList`, `Chart.bridge?_ofList`: lookups find what was added
  last;
* `Chart.lists_iff_of_bridge?`: when a bridge is listed;
* `Chart.ListsBridges`, `Chart.BridgesHandedOn`, **`Chart.listsBridges_iff`**: charts that list all
  of their bridges;
* **`bridges_listed_unless_replaced`**: what is posted to through a bridge;
* `replaced_bridge_is_posted_to`: a bridge that is posted to and not listed.
-/

namespace LayeredLedger

/-- The last value that passes a test. -/
theorem find?_reverse_eq_some_iff {α : Type} {p : α → Bool} {l : List α} {a : α} :
    l.reverse.find? p = some a ↔ ∃ before after, l = before ++ a :: after ∧ p a = true ∧
      ∀ x ∈ after, p x = false := by
  rw [List.find?_eq_some_iff_append]
  constructor
  · rintro ⟨hp, later, earlier, hl, hlater⟩
    refine ⟨earlier.reverse, later.reverse, ?_, hp, fun x hx => ?_⟩
    · rw [← List.reverse_reverse l, hl]
      simp
    · simpa using hlater x (List.mem_reverse.1 hx)
  · rintro ⟨before, after, rfl, hp, hafter⟩
    refine ⟨hp, after.reverse, before.reverse, by simp, fun x hx => ?_⟩
    rw [hafter x (List.mem_reverse.1 hx)]
    rfl

namespace Chart

/-! ## Lookups -/

theorem bridges_bridgeRole? {a : Account} {currency : CurrencyCode} {role : BridgeRole} :
    Bridges a currency role ↔ a.bridgeRole? = some role ∧ a.currency = currency := by
  unfold Bridges Account.bridgeRole?
  cases a.kind <;> simp

/-- One more account is found if it bridges; if not, nothing changes. -/
theorem bridge?_add (chart : Chart) (a : Account) (currency : CurrencyCode) (role : BridgeRole) :
    (chart.add a).bridge? currency role =
      if Bridges a currency role then some a else chart.bridge? currency role := by
  unfold bridge? add
  dsimp only
  cases hrole : a.bridgeRole? with
  | none =>
    have hno : ¬Bridges a currency role := fun h => by
      rw [(bridges_bridgeRole?.1 h).1] at hrole
      cases hrole
    rw [if_neg hno]
  | some own =>
    by_cases h : Bridges a currency role
    · rw [if_pos h]
      exact List.find?_cons_of_pos (decide_eq_true h)
    · rw [if_neg h, List.find?_cons_of_neg (by simpa using h), List.find?_filter]
      -- a bridge that is taken out is of another currency or part
      congr 1
      funext b
      have hother : Bridges b currency role → ¬Bridges b a.currency own := fun hb hb' => by
        have hsame : own = role := by
          rw [← Option.some_inj, ← (bridges_bridgeRole?.1 hb').1, (bridges_bridgeRole?.1 hb).1]
        exact h (bridges_bridgeRole?.2 ⟨hrole.trans (congrArg some hsame), hb'.2.symm.trans hb.2⟩)
      by_cases hb : Bridges b currency role
      · simp [hb, hother hb]
      · simp [hb]

/-- The account under a code is the last one that was added with it. -/
theorem account?_ofList (accounts : List Account) (code : String) :
    (ofList accounts).account? code = accounts.reverse.find? fun a => a.code = code := by
  induction accounts using List.reverseRecOn with
  | nil => rfl
  | append_singleton l a ih =>
    rw [ofList_append, account?_add, ih, List.reverse_append, List.reverse_singleton,
      List.singleton_append, List.find?_cons]
    by_cases h : a.code = code <;> simp [h]

/-- The bridge of a currency for a part is the last one that was added. -/
theorem bridge?_ofList (accounts : List Account) (currency : CurrencyCode) (role : BridgeRole) :
    (ofList accounts).bridge? currency role =
      accounts.reverse.find? fun a => Bridges a currency role := by
  induction accounts using List.reverseRecOn with
  | nil => rfl
  | append_singleton l a ih =>
    rw [ofList_append, bridge?_add, ih, List.reverse_append, List.reverse_singleton,
      List.singleton_append, List.find?_cons]
    by_cases h : Bridges a currency role <;> simp [h]

theorem bridge?_ofList_eq_some_iff {accounts : List Account} {currency : CurrencyCode}
    {role : BridgeRole} {b : Account} :
    (ofList accounts).bridge? currency role = some b ↔ ∃ before after,
      accounts = before ++ b :: after ∧ Bridges b currency role ∧
        ∀ a ∈ after, ¬Bridges a currency role := by
  rw [bridge?_ofList, find?_reverse_eq_some_iff]
  simp only [decide_eq_true_eq, decide_eq_false_iff_not]

/-! ## Listed bridges -/

/-- A bridge, behind which no other was added, is listed exactly if nobody took over its code. -/
theorem lists_iff_of_bridge? {before after : List Account} {b : Account} {currency : CurrencyCode}
    {role : BridgeRole} (hb : Bridges b currency role)
    (hlast : ∀ a ∈ after, ¬Bridges a currency role) :
    (ofList (before ++ b :: after)).Lists b ↔ ∀ a ∈ after, a.code ≠ b.code := by
  rw [Lists, account?_ofList, List.reverse_append, List.reverse_cons, List.append_assoc,
    List.find?_append]
  cases hfind : after.reverse.find? fun a => decide (a.code = b.code) with
  | none =>
    have hnone := List.find?_eq_none.1 hfind
    simpa using hnone
  | some x =>
    -- `x` took over the code, and it is not `b`, which was added before
    have hx : x ∈ after := List.mem_reverse.1 (List.mem_of_find?_eq_some hfind)
    have hcode : x.code = b.code := by simpa using List.find?_some hfind
    rw [Option.some_or, Option.some.injEq]
    exact ⟨fun e => absurd (e ▸ hb) (hlast x hx), fun h => absurd hcode (h x hx)⟩

/-- The chart has every bridge under its code. -/
def ListsBridges (chart : Chart) : Prop :=
  ∀ currency role b, chart.bridge? currency role = some b → chart.Lists b

/-- The account is a bridge of the chart that the chart does not list. -/
def IsLeftBridge (chart : Chart) (a : Account) : Prop :=
  ¬chart.Lists a ∧ ∃ role, chart.bridge? a.currency role = some a

/-- Whenever the code of a bridge is used again, another bridge of its currency and part follows. -/
def BridgesHandedOn (accounts : List Account) : Prop :=
  ∀ before b after role, accounts = before ++ b :: after → b.kind = .bridge role →
    (∃ a ∈ after, a.code = b.code) → ∃ a ∈ after, Bridges a b.currency role

/-- **A chart lists all of its bridges** exactly if no bridge is lost to an account of another
kind, currency or part. -/
theorem listsBridges_iff {accounts : List Account} :
    (ofList accounts).ListsBridges ↔ BridgesHandedOn accounts := by
  constructor
  · rintro h before b after role rfl hkind ⟨a, ha, hcode⟩
    by_contra hnone
    have hb : Bridges b b.currency role := ⟨hkind, rfl⟩
    have hlast : ∀ x ∈ after, ¬Bridges x b.currency role := fun x hx hbridges =>
      hnone ⟨x, hx, hbridges⟩
    have hlists := h _ _ b (bridge?_ofList_eq_some_iff.2 ⟨before, after, rfl, hb, hlast⟩)
    exact (lists_iff_of_bridge? hb hlast).1 hlists a ha hcode
  · intro h currency role b hfound
    obtain ⟨before, after, rfl, hb, hlast⟩ := bridge?_ofList_eq_some_iff.1 hfound
    refine (lists_iff_of_bridge? hb hlast).2 fun a ha hcode => ?_
    obtain ⟨x, hx, hbridges⟩ := h before b after role rfl hb.1 ⟨a, ha, hcode⟩
    exact hlast x hx (hb.2 ▸ hbridges)

/-- What a chart finds by currency and part is listed, or left behind. -/
theorem lists_or_isLeftBridge {chart : Chart} {currency : CurrencyCode} {role : BridgeRole}
    {b : Account} (hb : chart.bridge? currency role = some b) :
    chart.Lists b ∨ chart.IsLeftBridge b := by
  by_cases h : chart.Lists b
  · exact .inl h
  · have hbridges : Bridges b currency role := by simpa using List.find?_some hb
    exact .inr ⟨h, role, hbridges.2 ▸ hb⟩

theorem ListsBridges.not_isLeftBridge {chart : Chart} (h : chart.ListsBridges) (a : Account) :
    ¬chart.IsLeftBridge a := by
  rintro ⟨hnot, role, hbridge⟩
  exact hnot (h _ _ _ hbridge)

end Chart

/-! ## What is posted to -/

/-- A created transaction posts to listed accounts, and to bridges that are left behind. -/
theorem IsDraft.lists_or_isLeftBridge {s : LedgerService} {request : TransactionRequest}
    {chart : Chart} {t : Transaction} {strategy : Strategy} {plans : List EntryPlan}
    (hd : IsDraft s request chart t strategy plans) {e : Entry} (he : e ∈ t.entries) :
    chart.Lists e.account ∨ chart.IsLeftBridge e.account := by
  obtain ⟨p, hp, x, hx, rfl⟩ := hd.exists_leg he
  show chart.Lists x.account ∨ chart.IsLeftBridge x.account
  rcases (hd.isLegOf hp hx).account with h | h | ⟨role, h⟩
  · rw [h]
    exact .inl (hd.plan p hp).lists_debit.1
  · rw [h]
    exact .inl (hd.plan p hp).lists_credit.1
  · rw [(hd.plan p hp).bridge role] at h
    exact Chart.lists_or_isLeftBridge h

/-- So does a reset. -/
theorem LedgerService.lists_or_isLeftBridge_of_dailyReset {s : LedgerService} {journal : JournalId}
    {chart : Chart} {reference : String} {lookup : BalanceLookup} {t : Transaction}
    (h : s.dailyReset journal chart reference lookup = .ok (some t)) {e : Entry}
    (he : e ∈ t.entries) : chart.Lists e.account ∨ chart.IsLeftBridge e.account := by
  obtain ⟨a, ha, -, -, haccount | hbridge⟩ := exists_of_dailyReset h he
  · rw [haccount]
    exact .inl (Keyed.get?_eq_some_iff.2 ⟨(List.mem_filter.1 ha).1, rfl⟩)
  · exact Chart.lists_or_isLeftBridge hbridge

/-! ## The main result -/

/-- **Bridges are listed unless they are replaced.** The bridge that a chart finds for a currency
and a part is one, and the last that was added; the chart finds it under its code exactly if no
account that was added later has this code. So all bridges are listed exactly if every bridge whose
code is used again is followed by another bridge of its currency and part.

Created transactions and resets post to accounts that the chart lists, and to bridges that it does
not list any more; if all bridges are handed on, there are none of these. -/
theorem bridges_listed_unless_replaced (accounts : List Account) :
    (∀ currency role b, (Chart.ofList accounts).bridge? currency role = some b →
      Chart.Bridges b currency role ∧ ∃ before after, accounts = before ++ b :: after ∧
        (∀ a ∈ after, ¬Chart.Bridges a currency role) ∧
        ((Chart.ofList accounts).account? b.code = some b ↔ ∀ a ∈ after, a.code ≠ b.code)) ∧
    ((Chart.ofList accounts).ListsBridges ↔ Chart.BridgesHandedOn accounts) ∧
    (Chart.BridgesHandedOn accounts → ∀ a, ¬(Chart.ofList accounts).IsLeftBridge a) ∧
    ∀ s : LedgerService,
      (∀ request lookup t, s.create request (.ofList accounts) lookup = .ok t →
        ∀ e ∈ t.entries, (Chart.ofList accounts).account? e.account.code = some e.account ∨
          (Chart.ofList accounts).IsLeftBridge e.account) ∧
      ∀ journal reference lookup t,
        s.dailyReset journal (.ofList accounts) reference lookup = .ok (some t) →
        ∀ e ∈ t.entries, (Chart.ofList accounts).account? e.account.code = some e.account ∨
          (Chart.ofList accounts).IsLeftBridge e.account := by
  refine ⟨fun currency role b hfound => ?_, Chart.listsBridges_iff,
    fun h => (Chart.listsBridges_iff.2 h).not_isLeftBridge, fun s => ⟨?_, ?_⟩⟩
  · obtain ⟨before, after, rfl, hb, hlast⟩ := Chart.bridge?_ofList_eq_some_iff.1 hfound
    exact ⟨hb, before, after, rfl, hlast, Chart.lists_iff_of_bridge? hb hlast⟩
  · intro request lookup t ht e he
    obtain ⟨-, strategy, plans, hd⟩ := LedgerService.exists_isDraft_of_create ht
    exact hd.lists_or_isLeftBridge he
  · intro journal reference lookup t ht e he
    exact LedgerService.lists_or_isLeftBridge_of_dailyReset ht he

namespace SmallLedger

/-- An asset bridge under the code of the asset bridge. -/
def formerBridge : Account := { assetBridge with id := ⟨.ofNat 9⟩ }

/-- An account that is no bridge, under the code of the asset bridge. -/
def successor : Account := account 10 assetBridge.code .debit

end SmallLedger

open SmallLedger in
/-- The asset bridge is added twice, and what is posted to is the second. -/
theorem bridges_listed_unless_replaced_smallLedger : ∃ t r,
    Chart.BridgesHandedOn (formerBridge :: accounts) ∧
    (Chart.ofList (formerBridge :: accounts)).account? assetBridge.code = some assetBridge ∧
    service.create (payment 40) (.ofList (formerBridge :: accounts)) usedTen.lookup = .ok t ∧
    service.dailyReset journal (.ofList (formerBridge :: accounts)) "R1" usedTen.lookup =
      .ok (some r) ∧
    ∀ e ∈ t.entries ++ r.entries,
      (Chart.ofList (formerBridge :: accounts)).account? e.account.code = some e.account := by
  obtain ⟨-, hlists, hleft, hposts⟩ := bridges_listed_unless_replaced (formerBridge :: accounts)
  obtain ⟨hcreated, hreset⟩ := hposts service
  have hbridges : ∀ b ∈ (Chart.ofList (formerBridge :: accounts)).bridges,
      (Chart.ofList (formerBridge :: accounts)).account? b.code = some b := by
    decide +kernel
  have hhanded : Chart.BridgesHandedOn (formerBridge :: accounts) :=
    hlists.1 fun currency role b hb => hbridges b (List.mem_of_find?_eq_some hb)
  obtain ⟨t, ht⟩ : ∃ t, service.create (payment 40) (.ofList (formerBridge :: accounts))
      usedTen.lookup = .ok t := by
    decide +kernel
  obtain ⟨r?, hr, hsome⟩ := bind_eq_ok.1 (by decide +kernel : (do
    let r? ← service.dailyReset journal (.ofList (formerBridge :: accounts)) "R1" usedTen.lookup
    return r?.isSome) = (.ok true : Except Failure Bool))
  obtain ⟨r, rfl⟩ := Option.isSome_iff_exists.1 (Except.ok.inj hsome)
  refine ⟨t, r, hhanded, by decide +kernel, ht, hr, fun e he => ?_⟩
  have hposted := (List.mem_append.1 he).elim (hcreated _ _ t ht e) (hreset _ _ _ r hr e)
  exact hposted.resolve_right (hleft hhanded e.account)

open SmallLedger in
/-- An account takes over the code of the asset bridge. The bridge is still found by its currency
and part, and posted to, though the chart has the other account under its code. -/
theorem replaced_bridge_is_posted_to : ∃ t,
    (Chart.ofList (accounts ++ [successor])).bridge? usd .asset = some assetBridge ∧
    (Chart.ofList (accounts ++ [successor])).account? assetBridge.code = some successor ∧
    successor ≠ assetBridge ∧
    service.create (payment 40) (.ofList (accounts ++ [successor])) usedTen.lookup = .ok t ∧
    ∃ e ∈ t.entries, e.account = assetBridge := by
  obtain ⟨t, ht, hposted⟩ := bind_eq_ok.1 (by decide +kernel : (do
    let t ← service.create (payment 40) (.ofList (accounts ++ [successor])) usedTen.lookup
    return decide (∃ e ∈ t.entries, e.account = assetBridge)) = (.ok true : Except Failure Bool))
  exact ⟨t, by decide +kernel, by decide +kernel, by decide +kernel, ht,
    of_decide_eq_true (Except.ok.inj hposted)⟩

end LayeredLedger
