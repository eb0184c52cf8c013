import LayeredLedger.Proofs.Entries
import LayeredLedger.Proofs.Operations
import LayeredLedger.Proofs.Totals

/-!
# The anatomy of a completion

A completion takes back every leg outside of the base layer and then settles the plans one after
the other. What settles a plan depends on the plan, and for a rebate on the accounts of the
transaction: its payer must be on some entry.

* `Settles`: movements that settle a list of entries, without an error;
* `EntryPlan.settled`: the movements that settle a plan;
* `IsDraft.settlement`: the settlement of a created transaction;
* `IsCompletion`, **`IsDraft.exists_isCompletion`**: the transaction that completes it.
-/

namespace LayeredLedger

/-! ## Settling entries -/

/-- The step gives movements for each of the entries, and these are their postings. -/
def Settles (f : Entry → Except LedgerError (List EntrySpec)) (entries : List Entry)
    (ps : List Posting) : Prop :=
  ∃ lists, entries.mapM f = .ok lists ∧ lists.flatten.map EntrySpec.posting = ps

namespace Settles

variable {f : Entry → Except LedgerError (List EntrySpec)}

theorem nil : Settles f [] [] := ⟨[], rfl, rfl⟩

theorem append {es es' : List Entry} {ps ps' : List Posting} (h : Settles f es ps)
    (h' : Settles f es' ps') : Settles f (es ++ es') (ps ++ ps') := by
  obtain ⟨lists, hlists, rfl⟩ := h
  obtain ⟨lists', hlists', rfl⟩ := h'
  refine ⟨lists ++ lists', ?_, by rw [List.flatten_append, List.map_append]⟩
  rw [List.mapM_append]
  exact bind_eq_ok.2 ⟨lists, hlists, bind_eq_ok.2 ⟨lists', hlists', rfl⟩⟩

theorem single {e : Entry} {specs : List EntrySpec} (h : f e = .ok specs) :
    Settles f [e] (specs.map EntrySpec.posting) := by
  refine ⟨[specs], ?_, by simp⟩
  rw [List.mapM_cons]
  exact bind_eq_ok.2 ⟨specs, h, rfl⟩

theorem quiet {es : List Entry} (h : ∀ e ∈ es, f e = .ok []) : Settles f es [] := by
  induction es with
  | nil => exact nil
  | cons e es ih =>
    exact (single (h e (by simp))).append (ih fun x hx => h x (by simp [hx]))

theorem flatMap {α : Type} {l : List α} {g : α → List Entry} {k : α → List Posting}
    (h : ∀ a ∈ l, Settles f (g a) (k a)) : Settles f (l.flatMap g) (l.flatMap k) := by
  induction l with
  | nil => exact nil
  | cons a l ih =>
    rw [List.flatMap_cons, List.flatMap_cons]
    exact (h a (by simp)).append (ih fun x hx => h x (by simp [hx]))

end Settles

/-! ## Settling plans -/

/-- A debit of one account and a credit of another on the base layer. -/
def EntryPlan.moved (p : EntryPlan) (debited credited : Account) : List Posting :=
  [⟨debited, .debit, p.amount, p.layer .base⟩, ⟨credited, .credit, p.amount, p.layer .base⟩]

/-- The movements that settle a plan of a transaction. -/
def EntryPlan.settled (t : Transaction) (p : EntryPlan) : Strategy → List Posting
  | .direct => []
  | .pendingInbound =>
    match p.liabilityBridge? with
    | some liability =>
      [⟨p.credit, .credit, p.amount, p.layer .base⟩, ⟨liability, .debit, p.amount, p.layer .base⟩]
    | none => []
  | .pendingBillPayment =>
    match p.request.kind? with
    | some .amount =>
      match p.liabilityBridge? with
      | some liability => p.moved liability p.credit
      | none => []
    | some .rebate => if p.debit.code ∈ t.accountCodes then p.moved p.debit p.credit else []
    | some .commission => if p.credit.side = .credit then p.moved p.debit p.credit else []
    | _ => []

/-- Plans are settled by their amounts, on the base layer. -/
theorem EntryPlan.mem_settled {t : Transaction} {p : EntryPlan} {strategy : Strategy} {q : Posting}
    (hq : q ∈ p.settled t strategy) : q.amount = p.amount ∧ q.layer = p.layer .base := by
  have hmoved : ∀ a b, q ∈ p.moved a b → q.amount = p.amount ∧ q.layer = p.layer .base := by
    intro a b h
    simp only [moved, List.mem_cons, List.not_mem_nil, or_false] at h
    rcases h with rfl | rfl <;> exact ⟨rfl, rfl⟩
  unfold settled at hq
  split at hq
  · simp at hq
  · split at hq
    · simp only [List.mem_cons, List.not_mem_nil, or_false] at hq
      rcases hq with rfl | rfl <;> exact ⟨rfl, rfl⟩
    · simp at hq
  · split at hq
    · split at hq
      · exact hmoved _ _ hq
      · simp at hq
    · split at hq
      · exact hmoved _ _ hq
      · simp at hq
    · split at hq
      · exact hmoved _ _ hq
      · simp at hq
    · simp at hq

/-- Nothing settles a plan of a bill payment of another kind. -/
theorem EntryPlan.settled_other {t : Transaction} {p : EntryPlan}
    (hamount : p.request.kind? ≠ some .amount) (hrebate : p.request.kind? ≠ some .rebate)
    (hcommission : p.request.kind? ≠ some .commission) :
    p.settled t .pendingBillPayment = [] := by
  dsimp only [settled]
  split
  · contradiction
  · contradiction
  · contradiction
  · rfl

theorem mem_accountCodes {t : Transaction} {code : String} :
    code ∈ t.accountCodes ↔ ∃ e ∈ t.entries, e.account.code = code := by
  have hstep : ∀ (codes : List String) (c : String),
      code ∈ (if c ∈ codes then codes else codes ++ [c]) ↔ code ∈ codes ∨ c = code := by
    intro codes c
    by_cases hc : c ∈ codes
    · rw [if_pos hc]
      exact ⟨.inl, fun h => h.elim id fun e => e ▸ hc⟩
    · rw [if_neg hc, List.mem_append, List.mem_singleton, eq_comm]
  have hfold : ∀ codes, code ∈ t.entries.foldl
      (fun codes e => if e.account.code ∈ codes then codes else codes ++ [e.account.code]) codes ↔
      code ∈ codes ∨ ∃ e ∈ t.entries, e.account.code = code := by
    induction t.entries with
    | nil => simp
    | cons e entries ih =>
      intro codes
      rw [List.foldl_cons, ih, hstep]
      simp [or_assoc]
  rw [Transaction.accountCodes, hfold]
  simp

theorem findAccount?_eq_none {t : Transaction} {code : String} :
    findAccount? t code = none ↔ code ∉ t.accountCodes := by
  simp [findAccount?, mem_accountCodes]

/-! ## Settling one entry -/

section Entry

variable {t : Transaction} {layers : BaseLayers} {e : Entry} {code : String} {a : Account}
  {layer : Layer}

theorem payOut_of_none (h : e.tags.get? "credit" = none) : payOut t layers e = .ok [] := by
  rw [payOut, h]
  rfl

theorem payOut_of_some (hcode : e.tags.get? "credit" = some code)
    (hfound : findAccount? t code = some a) (hlayer : baseLayerOf e layers = .ok layer) :
    payOut t layers e = .ok
      [.credit a e.amount layer ("Completion credit for " ++ e.detail),
        .debit e.account e.amount layer "Bridge debit for completion"] := by
  have hrecipient : recipient t code = .ok a := by rw [recipient, hfound]
  rw [payOut, hcode]
  exact bind_eq_ok.2 ⟨a, hrecipient, bind_eq_ok.2 ⟨layer, hlayer, rfl⟩⟩

theorem collect_of_none (h : e.tags.get? "debit" = none) : collect t layers e = .ok [] := by
  rw [collect, h]
  rfl

theorem settleLeg_of_none (hcredit : e.tags.get? "credit" = none)
    (hdebit : e.tags.get? "debit" = none) : settleLeg t layers e = .ok [] := by
  rw [settleLeg, hcredit, hdebit]
  rfl

variable {kind : EntryKind}

theorem settleLeg_of_some (hcode : (e.tags.get? "credit" <|> e.tags.get? "debit") = some code)
    (hkind : e.tags.get? "type" = some kind.name) (hname : EntryKind.ofName kind.name = kind)
    (hfound : findAccount? t code = some a) (hlayer : baseLayerOf e layers = .ok layer) :
    settleLeg t layers e = .ok (billMovement e kind a layer) := by
  rw [settleLeg, hcode, hkind]
  dsimp only
  rw [hfound, hname]
  exact bind_eq_ok.2 ⟨layer, hlayer, rfl⟩

/-- A leg whose other account is on no entry is left as it is, without an error. -/
theorem settleLeg_of_lost (hcode : (e.tags.get? "credit" <|> e.tags.get? "debit") = some code)
    (hkind : e.tags.get? "type" = some kind.name) (hlost : findAccount? t code = none) :
    settleLeg t layers e = .ok [] := by
  rw [settleLeg, hcode, hkind]
  dsimp only
  rw [hlost]
  rfl

end Entry

/-! ## Legs of which one is tagged -/

section Legs

variable {f : Entry → Except LedgerError (List EntrySpec)} {b : Transaction} {p : EntryPlan}
  {specs : List EntrySpec}

/-- The tagged leg of the liability bridge on the base layer. -/
def bridgeLeg (p : EntryPlan) (liability : Account) (tags : Tags) : EntrySpec :=
  (EntrySpec.credit liability p.amount (p.layer .base) p.request.detail).tagged tags

theorem tags?_bridgeLeg (p : EntryPlan) (liability : Account) (tags : Tags) :
    (bridgeLeg p liability tags).tags? = some tags := rfl

theorem bridgeLeg_mem (p : EntryPlan) (liability : Account) (tags : Tags) :
    bridgeLeg p liability tags ∈ intoBridge p liability tags := by
  simp [bridgeLeg, intoBridge]

theorem settles_intoBridge {liability : Account} {tags : Tags}
    (hquiet : ∀ x : EntrySpec, x.tags? = none → f (b.entryOf x) = .ok [])
    (htagged : f (b.entryOf (bridgeLeg p liability tags)) = .ok specs) :
    Settles f ((intoBridge p liability tags).map b.entryOf) (specs.map EntrySpec.posting) := by
  have h : Settles f [b.entryOf (.debit p.debit p.amount (p.layer .base) p.request.detail)] [] :=
    Settles.quiet (by simpa using hquiet _ rfl)
  exact h.append (Settles.single htagged)

theorem settles_pendingLegs (asset liability : Account) {tags? : Option Tags}
    (hquiet : ∀ x : EntrySpec, x.tags? = none → f (b.entryOf x) = .ok [])
    (hrecipient : f (b.entryOf (recipientLeg p tags?)) = .ok specs) :
    Settles f ((pendingLegs p asset liability tags?).map b.entryOf)
      (specs.map EntrySpec.posting) := by
  have hothers : ∀ l : List EntrySpec, (∀ x ∈ l, x.tags? = none) → Settles f (l.map b.entryOf) [] :=
    fun l hl => Settles.quiet fun e he => by
      obtain ⟨x, hx, rfl⟩ := List.mem_map.1 he
      exact hquiet x (hl x hx)
  have hsingle := Settles.single hrecipient
  unfold recipientLeg at hsingle
  unfold pendingLegs
  cases hside : p.credit.side with
  | credit =>
    rw [hside] at hsingle
    exact (hothers [.debit asset p.amount (p.layer .pending) p.request.detail,
      .credit liability p.amount (p.layer .pending) p.request.detail,
      .debit liability p.amount (p.layer .pending) p.request.detail]
      (by simp [EntrySpec.debit, EntrySpec.credit, EntrySpec.untagged])).append hsingle
  | debit =>
    rw [hside] at hsingle
    have h := hsingle.append (hothers [.credit liability p.amount (p.layer .pending)
      p.request.detail] (by simp [EntrySpec.credit, EntrySpec.untagged]))
    rwa [List.append_nil] at h

end Legs

/-! ## The plans of a created transaction -/

namespace IsDraft

variable {s : LedgerService} {request : TransactionRequest} {chart : Chart} {t : Transaction}
  {strategy : Strategy} {plans : List EntryPlan} (hd : IsDraft s request chart t strategy plans)
  (hm : request.metadata.IsPlain) (ht : chart.IsTidy)

theorem get?_entryOf (hm : request.metadata.IsPlain) (journal : JournalId) (x : EntrySpec)
    {key : String} (hkey : key ∈ reservedKeys) :
    ((request.blank journal).entryOf x).tags.get? key = x.tags?.bind (·.get? key) := by
  change ((metadataTags request.metadata).propagate x.tags?).get? key = _
  rw [Tags.get?_propagate, hm.get?_tags hkey, Option.or_none]

include hd

theorem findAccount?_credit (ht : chart.IsTidy) {p : EntryPlan} (hp : p ∈ plans)
    (hs : strategy ≠ .direct) (hne : strategy.legsOf p ≠ []) :
    findAccount? t p.credit.code = some p.credit := by
  obtain ⟨x, hx, haccount, -⟩ := Strategy.exists_recipient (hd.legs p hp) hs hne
  have h := hd.findAccount?_code ht (hd.mem_entries hp hx)
  change findAccount? t x.account.code = some x.account at h
  rwa [haccount] at h

theorem baseLayerOf_leg {p : EntryPlan} (hp : p ∈ plans) {x : EntrySpec}
    (hx : x ∈ strategy.legsOf p) :
    baseLayerOf ((request.blank t.journal).entryOf x) t.readLayers = .ok (p.layer .base) := by
  have hid := ((hd.plan p hp).registers (hd.isLegOf hp hx)).2.2
  rw [hd.baseLayerOf_entry (hd.mem_entries hp hx)]
  change Except.ok (Layer.of .base x.account.currencyId) = _
  rw [hid]
  rfl

theorem trim_debit (ht : chart.IsTidy) {p : EntryPlan} (hp : p ∈ plans) :
    Text.trim p.request.debit = p.debit.code := by
  have h := (hd.plan p hp).lists_debit
  rw [← h.2]
  exact ht.trim_code _ h.1

theorem trim_credit (ht : chart.IsTidy) {p : EntryPlan} (hp : p ∈ plans) :
    Text.trim p.request.credit = p.credit.code := by
  have h := (hd.plan p hp).lists_credit
  rw [← h.2]
  exact ht.trim_code _ h.1

/-! ### Money coming in -/

include hm ht

theorem settles_paid (hs : strategy = .pendingInbound) {p : EntryPlan} (hp : p ∈ plans) :
    Settles (payOut t t.readLayers)
      ((strategy.legsOf p).map (request.blank t.journal).entryOf) (p.settled t strategy) := by
  subst hs
  obtain ⟨asset, liability, -, hl, hlegs⟩ := inboundLegs_eq_ok (hd.legs p hp)
  have hquiet : ∀ x : EntrySpec, x.tags? = none →
      payOut t t.readLayers ((request.blank t.journal).entryOf x) = .ok [] := fun x hx => by
    refine payOut_of_none ?_
    rw [get?_entryOf hm _ x (by decide), hx]
    rfl
  have hmem : bridgeLeg p liability (.ofList [creditTag p.request.credit]) ∈
      Strategy.pendingInbound.legsOf p := by
    rw [hlegs]
    exact List.mem_append_left _ (bridgeLeg_mem p liability _)
  have hcode : ((request.blank t.journal).entryOf (bridgeLeg p liability
      (.ofList [creditTag p.request.credit]))).tags.get? "credit" = some p.credit.code := by
    rw [get?_entryOf hm _ _ (by decide), tags?_bridgeLeg, Option.bind_some,
      Tags.get?_ofList_single (pair?_creditTag _), if_pos rfl, hd.trim_credit ht hp]
  have hpaid := payOut_of_some hcode
    (hd.findAccount?_credit ht hp (by decide) (List.ne_nil_of_mem hmem))
    (hd.baseLayerOf_leg hp hmem)
  have h := (settles_intoBridge hquiet hpaid).append
    (settles_pendingLegs asset liability hquiet (hquiet (recipientLeg p none) rfl))
  rw [hlegs, List.map_append]
  have hsettled : p.settled t .pendingInbound =
      [⟨p.credit, .credit, p.amount, p.layer .base⟩,
        ⟨liability, .debit, p.amount, p.layer .base⟩] := by
    simp only [EntryPlan.settled, show p.liabilityBridge? = some liability from hl]
  rw [hsettled]
  exact h

omit ht in
/-- No leg of money coming in is tagged with an account to debit. -/
theorem settles_collected (hs : strategy = .pendingInbound) {p : EntryPlan} (hp : p ∈ plans) :
    Settles (collect t t.readLayers)
      ((strategy.legsOf p).map (request.blank t.journal).entryOf) [] := by
  subst hs
  obtain ⟨asset, liability, -, -, hlegs⟩ := inboundLegs_eq_ok (hd.legs p hp)
  have hquiet : ∀ x : EntrySpec, x.tags? = none →
      collect t t.readLayers ((request.blank t.journal).entryOf x) = .ok [] := fun x hx => by
    refine collect_of_none ?_
    rw [get?_entryOf hm _ x (by decide), hx]
    rfl
  have hbridge : collect t t.readLayers ((request.blank t.journal).entryOf (bridgeLeg p liability
      (.ofList [creditTag p.request.credit]))) = .ok [] := by
    refine collect_of_none ?_
    rw [get?_entryOf hm _ _ (by decide), tags?_bridgeLeg, Option.bind_some,
      Tags.get?_ofList_single (pair?_creditTag _), if_neg (by decide)]
  rw [hlegs, List.map_append]
  exact (settles_intoBridge hquiet hbridge).append
    (settles_pendingLegs asset liability hquiet (hquiet (recipientLeg p none) rfl))

/-! ### Bill payments -/

omit hd ht in
theorem settleLeg_untagged (x : EntrySpec) (hx : x.tags? = none) :
    settleLeg t t.readLayers ((request.blank t.journal).entryOf x) = .ok [] := by
  refine settleLeg_of_none ?_ ?_
  · rw [get?_entryOf hm _ x (by decide), hx]
    rfl
  · rw [get?_entryOf hm _ x (by decide), hx]
    rfl

theorem settleLeg_principal (hs : strategy = .pendingBillPayment) {p : EntryPlan} (hp : p ∈ plans)
    {liability : Account} (hmem : bridgeLeg p liability
      (.ofList [creditTag p.request.credit, kindTag .amount]) ∈ strategy.legsOf p) :
    ∃ specs, settleLeg t t.readLayers ((request.blank t.journal).entryOf (bridgeLeg p liability
      (.ofList [creditTag p.request.credit, kindTag .amount]))) = .ok specs ∧
      specs.map EntrySpec.posting = p.moved liability p.credit := by
  have hget := fun key (hkey : key ∈ reservedKeys) => by
    have h := get?_entryOf hm t.journal (bridgeLeg p liability
      (.ofList [creditTag p.request.credit, kindTag .amount])) hkey
    rwa [tags?_bridgeLeg, Option.bind_some,
      Tags.get?_ofList_pair (pair?_creditTag _) (pair?_kindTag _) (by decide),
      hd.trim_credit ht hp] at h
  have hcredit := hget "credit" (by decide)
  rw [if_pos rfl] at hcredit
  have htype := hget "type" (by decide)
  rw [if_neg (by decide), if_pos rfl, (by decide : Text.trim EntryKind.amount.name =
    EntryKind.amount.name)] at htype
  exact ⟨_, settleLeg_of_some (by rw [hcredit]; rfl) htype (by decide)
    (hd.findAccount?_credit ht hp (by simp [hs]) (List.ne_nil_of_mem hmem))
    (hd.baseLayerOf_leg hp hmem), rfl⟩

/-- The payer of a rebate or a commission pays the recipient, if the payer is on some entry. -/
theorem settleLeg_recipient {p : EntryPlan} (hp : p ∈ plans) {kind : EntryKind}
    (hkind : kind = .rebate ∨ kind = .commission) {code : String}
    (hcode : Text.trim code = p.debit.code)
    (hmem : recipientLeg p (some (.ofList [debitTag code, kindTag kind])) ∈ strategy.legsOf p) :
    ∃ specs, settleLeg t t.readLayers ((request.blank t.journal).entryOf (recipientLeg p
      (some (.ofList [debitTag code, kindTag kind])))) = .ok specs ∧
      specs.map EntrySpec.posting =
        if p.debit.code ∈ t.accountCodes then p.moved p.debit p.credit else [] := by
  have hname : Text.trim kind.name = kind.name ∧ EntryKind.ofName kind.name = kind := by
    rcases hkind with rfl | rfl <;> decide
  have hget := fun key (hkey : key ∈ reservedKeys) => by
    have h := get?_entryOf hm t.journal
      (recipientLeg p (some (.ofList [debitTag code, kindTag kind]))) hkey
    rwa [tags?_recipientLeg, Option.bind_some,
      Tags.get?_ofList_pair (pair?_debitTag _) (pair?_kindTag _) (by decide), hcode,
      hname.1] at h
  have hcredit := hget "credit" (by decide)
  rw [if_neg (by decide), if_neg (by decide)] at hcredit
  have hdebit := hget "debit" (by decide)
  rw [if_pos rfl] at hdebit
  have htype := hget "type" (by decide)
  rw [if_neg (by decide), if_pos rfl] at htype
  by_cases hfound : p.debit.code ∈ t.accountCodes
  · obtain ⟨e, he, hcode⟩ := mem_accountCodes.1 hfound
    have haccount : findAccount? t p.debit.code = some p.debit := by
      have heq := (hd.entry ht he).1.eq_of_code (hd.plan p hp).lists_debit.1 hcode
      rw [← heq, hd.findAccount?_code ht he]
    refine ⟨_, settleLeg_of_some (by rw [hcredit, hdebit]; rfl) htype hname.2 haccount
      (hd.baseLayerOf_leg hp hmem), ?_⟩
    rw [if_pos hfound]
    rcases hkind with rfl | rfl <;> rfl
  · refine ⟨[], settleLeg_of_lost (by rw [hcredit, hdebit]; rfl) htype
      (findAccount?_eq_none.2 hfound), ?_⟩
    rw [if_neg hfound]
    rfl

theorem settles_bill (hs : strategy = .pendingBillPayment) {p : EntryPlan} (hp : p ∈ plans) :
    Settles (settleLeg t t.readLayers)
      ((strategy.legsOf p).map (request.blank t.journal).entryOf) (p.settled t strategy) := by
  have hlegsOf := hd.legs p hp
  rw [hs] at hlegsOf
  obtain ⟨asset, liability, -, hl, hbill⟩ := billPaymentLegs_eq_ok hlegsOf
  have hl : p.liabilityBridge? = some liability := hl
  have hquiet := settleLeg_untagged (t := t) hm
  rw [← hs] at hbill
  generalize hlegs : strategy.legsOf p = legs at hbill
  cases hbill with
  | amount hkind =>
    have hmem : bridgeLeg p liability (.ofList [creditTag p.request.credit, kindTag .amount]) ∈
        strategy.legsOf p := by
      rw [hlegs]
      exact List.mem_append_left _ (bridgeLeg_mem p liability _)
    obtain ⟨specs, hspecs, hmoved⟩ := hd.settleLeg_principal hm ht hs hp hmem
    have h := (settles_intoBridge hquiet hspecs).append
      (settles_pendingLegs asset liability hquiet (hquiet (recipientLeg p none) rfl))
    rw [hs, EntryPlan.settled, hkind, hl, List.map_append]
    rwa [hmoved, List.map_nil, List.append_nil] at h
  | rebate hkind =>
    obtain ⟨specs, hspecs, hmoved⟩ := hd.settleLeg_recipient hm ht hp (.inl rfl)
      (hd.trim_debit ht hp) (by rw [hlegs]; exact recipientLeg_mem p asset liability _)
    rw [hs, EntryPlan.settled, hkind]
    rw [← hmoved]
    exact settles_pendingLegs asset liability hquiet hspecs
  | commission hkind hside =>
    have hcode := ht.trim_code _ (hd.plan p hp).lists_debit.1
    obtain ⟨specs, hspecs, hmoved⟩ := hd.settleLeg_recipient hm ht hp (.inr rfl)
      hcode (by rw [hlegs]; exact recipientLeg_mem p p.debit liability _)
    -- the payer stands in for the asset bridge, so it is on an entry
    have hpayer : EntrySpec.debit p.debit p.amount (p.layer .pending) p.request.detail ∈
        strategy.legsOf p := by
      rw [hlegs, pendingLegs, hside]
      exact List.mem_cons_self
    have hfound : p.debit.code ∈ t.accountCodes :=
      mem_accountCodes.2 ⟨_, hd.mem_entries hp hpayer, rfl⟩
    rw [hs, EntryPlan.settled, hkind]
    dsimp only
    rw [if_pos hside]
    rw [if_pos hfound] at hmoved
    rw [← hmoved]
    exact settles_pendingLegs p.debit liability hquiet hspecs
  | plainCommission hkind hside =>
    rw [hs, EntryPlan.settled, hkind]
    dsimp only
    rw [if_neg (by rw [hside]; decide)]
    exact settles_pendingLegs asset p.debit hquiet (hquiet (recipientLeg p none) rfl)
  | none hamount hrebate hcommission =>
    rw [hs, EntryPlan.settled_other hamount hrebate hcommission]
    exact Settles.nil

/-! ### The whole settlement -/

omit hm ht in
theorem unwindSpecs_postings : (unwindSpecs t t.readLayers).map EntrySpec.posting =
    (t.postings.filter fun q => !q.layer.isInBand .base).map Posting.opposite := by
  rw [unwindSpecs, Transaction.reversalSpecs, Transaction.postings, List.filter_map, List.map_map,
    List.map_map]
  have h : t.entries.filter (fun e => decide (e.layer ∈ unwoundLayers t.readLayers)) =
      t.entries.filter ((fun q => !q.layer.isInBand .base) ∘ Entry.posting) :=
    List.filter_congr fun e he => by
      rw [Bool.eq_iff_iff, decide_eq_true_iff, hd.unwinds he, Function.comp_apply,
        Bool.not_eq_true']
      rfl
  rw [h]
  rfl

omit hm ht in
theorem settles_entries {f : Entry → Except LedgerError (List EntrySpec)}
    {k : EntryPlan → List Posting} (h : ∀ p ∈ plans,
      Settles f ((strategy.legsOf p).map (request.blank t.journal).entryOf) (k p)) :
    Settles f t.entries (plans.flatMap k) := by
  rw [hd.entries, List.map_flatMap]
  exact Settles.flatMap h

/-- A transaction that waits for completion can be settled. -/
theorem settlement (hs : strategy ≠ .direct) : ∃ specs,
    strategy.settlement t t.readLayers = .ok specs ∧ specs.map EntrySpec.posting =
      (t.postings.filter fun q => !q.layer.isInBand .base).map Posting.opposite ++
        plans.flatMap fun p => p.settled t strategy := by
  cases h : strategy with
  | direct => contradiction
  | pendingInbound =>
    obtain ⟨paid, hpaid, hpostings⟩ := hd.settles_entries fun p hp => hd.settles_paid hm ht h hp
    obtain ⟨collected, hcollected, hnone⟩ :=
      hd.settles_entries fun p hp => hd.settles_collected hm h hp
    refine ⟨_, bind_eq_ok.2 ⟨(paid ++ collected).flatten, ?_, rfl⟩, ?_⟩
    · exact bind_eq_ok.2 ⟨paid, hpaid, bind_eq_ok.2 ⟨collected, hcollected, rfl⟩⟩
    · rw [List.map_append, hd.unwindSpecs_postings, List.flatten_append, List.map_append,
        hpostings, hnone, ← h]
      simp
  | pendingBillPayment =>
    obtain ⟨settled, hsettled, hpostings⟩ :=
      hd.settles_entries fun p hp => hd.settles_bill hm ht h hp
    refine ⟨_, bind_eq_ok.2 ⟨settled.flatten, bind_eq_ok.2 ⟨settled, hsettled, rfl⟩, rfl⟩, ?_⟩
    rw [List.map_append, hd.unwindSpecs_postings, hpostings, ← h]

end IsDraft

/-! ## Completions -/

/-- What completes a created transaction: every leg outside of the base layer taken back, and then
what settles its plans. -/
structure IsCompletion (t : Transaction) (strategy : Strategy) (plans : List EntryPlan)
    (c : Transaction) : Prop where
  postings : c.postings = (t.postings.filter fun q => !q.layer.isInBand .base).map
    Posting.opposite ++ plans.flatMap fun p => p.settled t strategy
  tags : c.tags = t.tags.add ("completes:" ++ t.detail)

/-- The transaction that a completion starts from. -/
def Transaction.completionStart (t : Transaction) (reference : String) : Transaction :=
  .start t.journal reference (t.tags.add ("completes:" ++ t.detail))

theorem Transaction.entries_completionStart (t : Transaction) (reference : String) :
    (t.completionStart reference).entries = [] := rfl

theorem Transaction.tags_completionStart (t : Transaction) (reference : String) :
    (t.completionStart reference).tags = t.tags.add ("completes:" ++ t.detail) := by
  rw [completionStart, tags_start]

theorem LedgerService.buildCompletion_eq {s : LedgerService} {t : Transaction}
    {layers : BaseLayers} {strategy : Strategy} (hl : s.baseLayersOf t = .ok layers)
    (hc : t.shape >>= chooseStrategy s.fallBack = .ok strategy) (reference : String) :
    s.buildCompletion t reference = strategy.settle t layers (t.completionStart reference) := by
  obtain ⟨shape, hshape, hchoose⟩ := bind_eq_ok.1 hc
  rw [buildCompletion, hl, hshape]
  change (chooseStrategy s.fallBack shape >>= _) = _
  rw [hchoose]
  rfl

namespace IsDraft

variable {s : LedgerService} {request : TransactionRequest} {chart : Chart} {t : Transaction}
  {strategy : Strategy} {plans : List EntryPlan} (hd : IsDraft s request chart t strategy plans)

include hd

theorem posting_pos {q : Posting} (hq : q ∈ t.postings) : 0 < q.amount := by
  rw [hd.postings] at hq
  obtain ⟨p, hp, hq⟩ := List.mem_flatMap.1 hq
  obtain ⟨x, hx, rfl⟩ := List.mem_map.1 hq
  have hamount : x.amount = p.amount := (hd.isLegOf hp hx).amount
  change 0 < x.amount
  rw [hamount]
  exact (hd.plan p hp).amount_pos

/-- **A transaction that waits for completion has a completion.** -/
theorem exists_isCompletion (hm : request.metadata.IsPlain) (ht : chart.IsTidy)
    (hne : t.entries ≠ []) (hs : strategy ≠ .direct) (reference : String) :
    ∃ c, s.buildCompletion t reference = .ok c ∧ IsCompletion t strategy plans c ∧
      ∀ q ∈ c.postings, 0 < q.amount := by
  obtain ⟨specs, hspecs, hpostings⟩ := hd.settlement hm ht hs
  have hbuild := LedgerService.buildCompletion_eq hd.baseLayersOf
    (hd.chooseStrategy_eq hm ht hne s.fallBack) reference
  have hpos : ∀ q ∈ specs.map EntrySpec.posting, 0 < q.amount := by
    intro q hq
    rw [hpostings] at hq
    rcases List.mem_append.1 hq with hq | hq
    · obtain ⟨q', hq', rfl⟩ := List.mem_map.1 hq
      have h := hd.posting_pos (List.mem_filter.1 hq').1
      exact h
    · obtain ⟨p, hp, hq⟩ := List.mem_flatMap.1 hq
      rw [(EntryPlan.mem_settled hq).1]
      exact (hd.plan p hp).amount_pos
  generalize hstart : t.completionStart reference = start at hbuild
  have hpost : start.post specs = .ok { start with
      entries := start.entries ++ specs.map start.entryOf } :=
    Transaction.post_eq_ok.2 ⟨fun x hx => hpos x.posting (List.mem_map_of_mem hx), rfl⟩
  have hempty : start.entries = [] := by rw [← hstart, Transaction.entries_completionStart]
  have htags : start.tags = t.tags.add ("completes:" ++ t.detail) := by
    rw [← hstart, Transaction.tags_completionStart]
  have hentries : (start.entries ++ specs.map start.entryOf).map Entry.posting =
      specs.map EntrySpec.posting := by
    rw [hempty, List.nil_append, start.postings_entryOf]
  rw [hbuild, Strategy.settle, hspecs]
  refine ⟨_, hpost, ⟨hentries.trans hpostings, htags⟩, fun q hq => hpos q ?_⟩
  rw [← hentries]
  exact hq

theorem isCompletion (hm : request.metadata.IsPlain) (ht : chart.IsTidy) (hne : t.entries ≠ [])
    (hs : strategy ≠ .direct) {reference : String} {lookup : BalanceLookup} {c t' : Transaction}
    (h : s.complete t reference lookup = (.ok (.completed c), t')) :
    IsCompletion t strategy plans c := by
  obtain ⟨-, hc, -⟩ := LedgerService.complete_eq_completed.1 h
  obtain ⟨hbuilt, -⟩ := LedgerService.approve_completionDraft.1 hc
  obtain ⟨c', hbuilt', hcompletion, -⟩ := hd.exists_isCompletion hm ht hne hs reference
  obtain rfl := Except.ok.inj (hbuilt'.symm.trans hbuilt)
  exact hcompletion

end IsDraft

/-! ## What creation returns -/

theorem LedgerService.exists_isDraft_of_create {s : LedgerService} {request : TransactionRequest}
    {chart : Chart} {lookup : BalanceLookup} {t : Transaction}
    (h : s.create request chart lookup = .ok t) :
    t.entries ≠ [] ∧ ∃ strategy plans, IsDraft s request chart t strategy plans := by
  obtain ⟨hbuilt, hvalid, -⟩ := create_eq_ok.1 h
  exact ⟨(of_validate hvalid).1, exists_isDraft hbuilt⟩

end LayeredLedger
