import LayeredLedger.Proofs.BridgeIndex

/-!
# Accounts that are named by tags

A pending transaction names, in a tag on one leg, the account that its completion is to settle the
leg with. The tag holds the code of the account and loses the blanks at the ends of the code, which
a chart does not. So completion looks for the code without these blanks, which is the code that was
named exactly if it has none.

* `EntryPlan.named?`, `EntryPlan.nameTags?`, `Strategy.tags_of_legs`: who is named, and where;
* `Strategy.movements`, `Strategy.movements_of_settlement`: what completion makes of one entry;
* `IsPassedOver`, `SettlesWith`, `settlesWith_entryOf`: a leg that names an account is settled with
  what is found under the code without blanks, and no other leg is settled;
* `Strategy.not_mem_of_settlement`: the codes that are reported as missing;
* `IsDraft.account_eq_of_code`: there is one account with the code if bridges are listed;
* **`named_account_is_resolved`**: from the legs to the completion;
* `blank_names_another`: a blank in a code decides who is paid.
-/

namespace LayeredLedger

/-! ## Names on legs -/

/-- The tag that names an account on the side on which completion posts to it. -/
def nameTag : Side → String → String
  | .credit => creditTag
  | .debit => debitTag

theorem pair?_nameTag (side : Side) (code : String) :
    pair? (nameTag side code) = some (side.lowerName, Text.trim code) := by
  cases side with
  | debit => exact pair?_debitTag code
  | credit => exact pair?_creditTag code

/-- The account that a strategy names on a leg of a plan, and the side on which completion posts to
it. -/
def EntryPlan.named? (p : EntryPlan) : Strategy → Option (Side × Account)
  | .direct => none
  | .pendingInbound => some (.credit, p.credit)
  | .pendingBillPayment =>
    match p.request.kind? with
    | some .amount => some (.credit, p.credit)
    | some .rebate => some (.debit, p.debit)
    | some .commission => if p.credit.side = .credit then some (.debit, p.debit) else none
    | _ => none

/-- The tags after the name: of a bill payment the kind of the entry. -/
def EntryPlan.kindTags (p : EntryPlan) : Strategy → List String
  | .pendingBillPayment => (p.request.kind?.map kindTag).toList
  | _ => []

/-- The tags of the leg on which the account is named. -/
def EntryPlan.nameTags? (p : EntryPlan) (strategy : Strategy) : Option Tags :=
  (p.named? strategy).map fun named =>
    .ofList (nameTag named.1 named.2.code :: p.kindTags strategy)

theorem filterMap_tags?_intoBridge (p : EntryPlan) (liability : Account) (tags : Tags) :
    (intoBridge p liability tags).filterMap EntrySpec.tags? = [tags] := rfl

theorem filterMap_tags?_pendingLegs (p : EntryPlan) (asset liability : Account)
    (tags? : Option Tags) :
    (pendingLegs p asset liability tags?).filterMap EntrySpec.tags? = tags?.toList := by
  unfold pendingLegs
  cases p.credit.side <;> cases tags? <;> rfl

/-- **One leg names the account**, and the others have no tags of their own. -/
theorem Strategy.tags_of_legs {strategy : Strategy} {p : EntryPlan} {legs : List EntrySpec}
    (hdebit : p.debit.code = p.request.debit) (hcredit : p.credit.code = p.request.credit)
    (hs : strategy ≠ .direct) (h : strategy.legs p = .ok legs) :
    legs.filterMap EntrySpec.tags? = (p.nameTags? strategy).toList := by
  cases strategy with
  | direct => contradiction
  | pendingInbound =>
    obtain ⟨asset, liability, -, -, rfl⟩ := inboundLegs_eq_ok h
    rw [List.filterMap_append, filterMap_tags?_intoBridge, filterMap_tags?_pendingLegs, ← hcredit]
    rfl
  | pendingBillPayment =>
    obtain ⟨asset, liability, -, -, hbill⟩ := billPaymentLegs_eq_ok h
    cases hbill with
    | amount kind =>
      rw [List.filterMap_append, filterMap_tags?_intoBridge, filterMap_tags?_pendingLegs,
        EntryPlan.nameTags?, EntryPlan.named?, EntryPlan.kindTags, kind, ← hcredit]
      rfl
    | rebate kind =>
      rw [filterMap_tags?_pendingLegs, EntryPlan.nameTags?, EntryPlan.named?, EntryPlan.kindTags,
        kind, ← hdebit]
      rfl
    | commission kind side =>
      rw [filterMap_tags?_pendingLegs, EntryPlan.nameTags?, EntryPlan.named?, EntryPlan.kindTags,
        kind]
      dsimp only
      rw [if_pos side]
      rfl
    | plainCommission kind side =>
      rw [filterMap_tags?_pendingLegs, EntryPlan.nameTags?, EntryPlan.named?, kind]
      dsimp only
      rw [if_neg (by rw [side]; decide)]
      rfl
    | none amount rebate commission =>
      rw [EntryPlan.nameTags?, EntryPlan.named?]
      split
      · contradiction
      · contradiction
      · contradiction
      · rfl

/-! ## What completion makes of an entry -/

/-- The movements that settle one entry. -/
def Strategy.movements (strategy : Strategy) (t : Transaction) (layers : BaseLayers) (e : Entry) :
    Except LedgerError (List EntrySpec) :=
  match strategy with
  | .direct => .ok []
  | .pendingInbound => do
    let paid ← payOut t layers e
    let collected ← collect t layers e
    return paid ++ collected
  | .pendingBillPayment => settleLeg t layers e

/-- A list of steps loses nothing of what one of its steps gives. -/
theorem exists_of_mapM_flatten {ε α β : Type} {f : α → Except ε (List β)} {l : List α}
    {lists : List (List β)} (h : l.mapM f = .ok lists) {x : α} (hx : x ∈ l) :
    ∃ own, f x = .ok own ∧ ∀ y ∈ own, y ∈ lists.flatten := by
  obtain ⟨own, hown, hstep⟩ := exists_of_mapM_eq_ok h hx
  exact ⟨own, hstep, fun y hy => List.mem_flatten.2 ⟨own, hown, hy⟩⟩

/-- A settlement has the movements of all entries. -/
theorem Strategy.movements_of_settlement {strategy : Strategy} {t : Transaction}
    {layers : BaseLayers} {legs : List EntrySpec} (h : strategy.settlement t layers = .ok legs)
    {e : Entry} (he : e ∈ t.entries) :
    ∃ own, strategy.movements t layers e = .ok own ∧ ∀ x ∈ own, x ∈ legs := by
  cases strategy with
  | direct => cases h
  | pendingInbound =>
    obtain ⟨settled, hsettled, h⟩ := bind_eq_ok.1 h
    obtain ⟨paid, hpaid, hsettled⟩ := bind_eq_ok.1 hsettled
    obtain ⟨collected, hcollected, hsettled⟩ := bind_eq_ok.1 hsettled
    obtain rfl := Except.ok.inj hsettled
    obtain rfl := Except.ok.inj h
    obtain ⟨out, hpayOut, hout⟩ := exists_of_mapM_flatten hpaid he
    obtain ⟨back, hcollect, hback⟩ := exists_of_mapM_flatten hcollected he
    refine ⟨out ++ back, bind_eq_ok.2 ⟨out, hpayOut, bind_eq_ok.2 ⟨back, hcollect, rfl⟩⟩, ?_⟩
    intro x hx
    rw [List.flatten_append]
    refine List.mem_append_right _ (List.mem_append.2 ?_)
    exact (List.mem_append.1 hx).imp (hout x) (hback x)
  | pendingBillPayment =>
    obtain ⟨settled, hsettled, h⟩ := bind_eq_ok.1 h
    obtain ⟨lists, hlists, hsettled⟩ := bind_eq_ok.1 hsettled
    obtain rfl := Except.ok.inj hsettled
    obtain rfl := Except.ok.inj h
    obtain ⟨own, hleg, hown⟩ := exists_of_mapM_flatten hlists he
    exact ⟨own, hleg, fun x hx => List.mem_append_right _ (hown x hx)⟩

/-- The entry has no name on it, and completion has nothing to settle. -/
structure IsPassedOver (strategy : Strategy) (e : Entry) : Prop where
  unnamed : ∀ side : Side, e.tags.get? side.lowerName = none
  movements : ∀ t layers, strategy.movements t layers e = .ok []

/-- A code is read from the entry, and completion settles the entry with the account that it finds
under this code: on this side, against the account of the entry. -/
structure SettlesWith (strategy : Strategy) (e : Entry) (side : Side) (code : String) : Prop where
  read : e.tags.get? side.lowerName = some code
  unread : e.tags.get? side.opposite.lowerName = none
  found : ∀ t layers layer a, baseLayerOf e layers = .ok layer → findAccount? t code = some a →
    ∃ own, strategy.movements t layers e = .ok own ∧ (own.map EntrySpec.posting).Perm
      [⟨a, side, e.amount, layer⟩, ⟨e.account, side.opposite, e.amount, layer⟩]
  /-- Without such an account money that comes in is refused, and a bill is not settled. -/
  lost : ∀ t layers, findAccount? t code = none → strategy.movements t layers e =
    if strategy = .pendingInbound then .error (.recipientNotFound code) else .ok []

theorem isPassedOver_of_unnamed (strategy : Strategy) {e : Entry}
    (h : ∀ side : Side, e.tags.get? side.lowerName = none) : IsPassedOver strategy e where
  unnamed := h
  movements t layers := by
    cases strategy with
    | direct => rfl
    | pendingInbound =>
      exact bind_eq_ok.2 ⟨[], payOut_of_none (h .credit),
        bind_eq_ok.2 ⟨[], collect_of_none (h .debit), rfl⟩⟩
    | pendingBillPayment => exact settleLeg_of_none (h .credit) (h .debit)

/-- Money that comes in is paid out to the account that is named. -/
theorem settlesWith_payOut {e : Entry} {code : String} (hread : e.tags.get? "credit" = some code)
    (hunread : e.tags.get? "debit" = none) : SettlesWith .pendingInbound e .credit code where
  read := hread
  unread := hunread
  found t layers layer a hlayer ha :=
    ⟨_, bind_eq_ok.2 ⟨_, payOut_of_some hread ha hlayer,
      bind_eq_ok.2 ⟨[], collect_of_none hunread, rfl⟩⟩, .refl _⟩
  lost t layers hlost := by
    have hrecipient : recipient t code = .error (.recipientNotFound code) := by
      rw [recipient, hlost]
    have hpaid : payOut t layers e = .error (.recipientNotFound code) := by
      rw [payOut, hread]
      exact bind_eq_error.2 (.inl hrecipient)
    rw [if_pos rfl]
    exact bind_eq_error.2 (.inl hpaid)

/-- Of a credit and a debit tag, the one that is there gives the code. -/
theorem code_of_read {e : Entry} {side : Side} {code : String}
    (hread : e.tags.get? side.lowerName = some code)
    (hunread : e.tags.get? side.opposite.lowerName = none) :
    (e.tags.get? "credit" <|> e.tags.get? "debit") = some code := by
  cases side with
  | credit => exact congrArg (· <|> e.tags.get? "debit") hread
  | debit => exact (congrArg (· <|> e.tags.get? "debit") hunread).trans hread

/-- The kinds of legs of bill payments that are settled, and the side on which they name an
account. -/
def EntryKind.NamesOn (kind : EntryKind) (side : Side) : Prop :=
  side = .credit ∧ kind = .amount ∨ side = .debit ∧ (kind = .rebate ∨ kind = .commission)

theorem EntryKind.NamesOn.name {kind : EntryKind} {side : Side} (h : kind.NamesOn side) :
    Text.trim kind.name = kind.name ∧ EntryKind.ofName kind.name = kind := by
  rcases h with ⟨-, rfl⟩ | ⟨-, rfl | rfl⟩ <;> decide

/-- A leg of a bill payment is settled with the account that is named, as its kind asks for. -/
theorem settlesWith_settleLeg {e : Entry} {side : Side} {code : String} {kind : EntryKind}
    (hnames : kind.NamesOn side) (hread : e.tags.get? side.lowerName = some code)
    (hunread : e.tags.get? side.opposite.lowerName = none)
    (hkind : e.tags.get? "type" = some kind.name) :
    SettlesWith .pendingBillPayment e side code where
  read := hread
  unread := hunread
  found t layers layer a hlayer ha := by
    refine ⟨_, settleLeg_of_some (code_of_read hread hunread) hkind hnames.name.2 ha hlayer, ?_⟩
    rcases hnames with ⟨rfl, rfl⟩ | ⟨rfl, rfl | rfl⟩
    · exact .swap _ _ _
    · exact .refl _
    · exact .refl _
  lost t layers hlost := settleLeg_of_lost (code_of_read hread hunread) hkind hlost

/-! ## From the leg to the entry -/

/-- Who names an account, and which. -/
theorem EntryPlan.of_named? {p : EntryPlan} {strategy : Strategy} {side : Side} {a : Account}
    (h : p.named? strategy = some (side, a)) :
    (side = .credit ∧ a = p.credit ∨ side = .debit ∧ a = p.debit) ∧
      (strategy = .pendingInbound ∧ side = .credit ∨ strategy = .pendingBillPayment ∧
        ∃ kind, p.request.kind? = some kind ∧ kind.NamesOn side) := by
  cases strategy with
  | direct => cases h
  | pendingInbound =>
    cases h
    exact ⟨.inl ⟨rfl, rfl⟩, .inl ⟨rfl, rfl⟩⟩
  | pendingBillPayment =>
    dsimp only [named?] at h
    split at h
    · rename_i hkind
      cases h
      exact ⟨.inl ⟨rfl, rfl⟩, .inr ⟨rfl, _, hkind, .inl ⟨rfl, rfl⟩⟩⟩
    · rename_i hkind
      cases h
      exact ⟨.inr ⟨rfl, rfl⟩, .inr ⟨rfl, _, hkind, .inr ⟨rfl, .inl rfl⟩⟩⟩
    · rename_i hkind
      split at h
      · cases h
        exact ⟨.inr ⟨rfl, rfl⟩, .inr ⟨rfl, _, hkind, .inr ⟨rfl, .inr rfl⟩⟩⟩
      · cases h
    · cases h

theorem EntryPlan.ne_direct_of_named? {p : EntryPlan} {strategy : Strategy} {side : Side}
    {a : Account} (h : p.named? strategy = some (side, a)) : strategy ≠ .direct := by
  rintro rfl
  cases h

section Legs

variable {strategy : Strategy} {p : EntryPlan} {start : Transaction} {x : EntrySpec}
  (hunnamed : ∀ side : Side, start.tags.get? side.lowerName = none)

include hunnamed

theorem isPassedOver_entryOf (hx : x.tags? = none) :
    IsPassedOver strategy (start.entryOf x) := by
  refine isPassedOver_of_unnamed strategy fun side => ?_
  show (start.tags.propagate x.tags?).get? side.lowerName = none
  rw [Tags.get?_propagate, hx, hunnamed side]
  rfl

/-- The leg that names an account is settled with the account under its code without blanks at the
ends. -/
theorem settlesWith_entryOf {side : Side} {a : Account}
    (hnamed : p.named? strategy = some (side, a)) (hx : x.tags? = p.nameTags? strategy) :
    SettlesWith strategy (start.entryOf x) side (Text.trim a.code) := by
  have hget : ∀ key, (start.entryOf x).tags.get? key =
      ((Tags.ofList (nameTag side a.code :: p.kindTags strategy)).get? key).or
        (start.tags.get? key) := fun key => by
    show (start.tags.propagate x.tags?).get? key = _
    rw [Tags.get?_propagate, hx, EntryPlan.nameTags?, hnamed]
    rfl
  have hother : side.lowerName ≠ side.opposite.lowerName := by cases side <;> decide
  have hread := hget side.lowerName
  have hunread := hget side.opposite.lowerName
  rcases (EntryPlan.of_named? hnamed).2 with ⟨rfl, rfl⟩ | ⟨rfl, kind, hkind, hnames⟩
  · have hkinds : p.kindTags .pendingInbound = [] := rfl
    have hown := Tags.get?_ofList_single (pair?_nameTag .credit a.code)
    rw [hkinds, hown, if_pos rfl, Option.some_or] at hread
    rw [hkinds, hown, if_neg hother, Option.none_or, hunnamed] at hunread
    exact settlesWith_payOut hread hunread
  · have htype : side.lowerName ≠ "type" := by cases side <;> decide
    have htype' : "type" ≠ side.opposite.lowerName := by cases side <;> decide
    have hkinds : p.kindTags .pendingBillPayment = [kindTag kind] := by
      rw [EntryPlan.kindTags, hkind]
      rfl
    have hown := Tags.get?_ofList_pair (pair?_nameTag side a.code) (pair?_kindTag kind) htype
    have hreadKind := hget "type"
    rw [hkinds, hown, if_pos rfl, Option.some_or] at hread
    rw [hkinds, hown, if_neg hother, if_neg htype', Option.none_or, hunnamed] at hunread
    rw [hkinds, hown, if_neg htype, if_pos rfl, Option.some_or, hnames.name.1] at hreadKind
    exact settlesWith_settleLeg hnames hread hunread hreadKind

end Legs

/-- An account that is named is named on some leg. -/
theorem EntryPlan.exists_leg_of_named? {p : EntryPlan} {strategy : Strategy}
    {legs : List EntrySpec}
    (htags : legs.filterMap EntrySpec.tags? = (p.nameTags? strategy).toList) {side : Side}
    {a : Account} (hnamed : p.named? strategy = some (side, a)) :
    ∃ x ∈ legs, x.tags? = p.nameTags? strategy := by
  have hsome : p.nameTags? strategy =
      some (.ofList (nameTag side a.code :: p.kindTags strategy)) := by
    rw [nameTags?, hnamed]
    rfl
  rw [hsome] at htags ⊢
  exact List.mem_filterMap.1 (htags ▸ List.mem_singleton_self _)

/-! ## Finding accounts -/

/-- An account on the transaction is found under its code, or another one that has this code. -/
theorem exists_findAccount? {t : Transaction} {code : String} (h : code ∈ t.accountCodes) :
    ∃ a, findAccount? t code = some a ∧ a.code = code := by
  cases hfound : findAccount? t code with
  | none => exact absurd h (findAccount?_eq_none.1 hfound)
  | some a =>
    obtain ⟨e, he, rfl⟩ := Option.map_eq_some_iff.1 hfound
    exact ⟨e.account, rfl, by simpa using List.find?_some he⟩

section Missing

variable {t : Transaction} {layers : BaseLayers} {e : Entry} {code : String}

theorem not_mem_of_recipient {code' : String}
    (h : recipient t code' = .error (.recipientNotFound code)) : code ∉ t.accountCodes := by
  unfold recipient at h
  split at h
  · cases h
  · rename_i hnone
    cases h
    exact findAccount?_eq_none.1 hnone

theorem baseLayerOf_ne_recipientNotFound :
    baseLayerOf e layers ≠ .error (.recipientNotFound code) := by
  unfold baseLayerOf
  split <;> nofun

theorem settlingBridge_ne_recipientNotFound {currency : CurrencyCode} :
    settlingBridge t currency ≠ .error (.recipientNotFound code) := by
  unfold settlingBridge
  split <;> nofun

theorem not_mem_of_payOut (h : payOut t layers e = .error (.recipientNotFound code)) :
    code ∉ t.accountCodes := by
  unfold payOut at h
  split at h
  · cases h
  rcases bind_eq_error.1 h with h | ⟨a, -, h⟩
  · exact not_mem_of_recipient h
  rcases bind_eq_error.1 h with h | ⟨layer, -, h⟩
  · exact absurd h baseLayerOf_ne_recipientNotFound
  · cases h

theorem not_mem_of_collect (h : collect t layers e = .error (.recipientNotFound code)) :
    code ∉ t.accountCodes := by
  unfold collect at h
  split at h
  · cases h
  rcases bind_eq_error.1 h with h | ⟨a, -, h⟩
  · exact not_mem_of_recipient h
  rcases bind_eq_error.1 h with h | ⟨bridge, -, h⟩
  · exact absurd h settlingBridge_ne_recipientNotFound
  rcases bind_eq_error.1 h with h | ⟨layer, -, h⟩
  · exact absurd h baseLayerOf_ne_recipientNotFound
  · cases h

theorem settleLeg_ne_recipientNotFound :
    settleLeg t layers e ≠ .error (.recipientNotFound code) := by
  intro h
  unfold settleLeg at h
  split at h
  · cases h
  split at h
  · cases h
  split at h
  · cases h
  rcases bind_eq_error.1 h with h | ⟨layer, -, h⟩
  · exact absurd h baseLayerOf_ne_recipientNotFound
  · cases h

/-- A code that is on some entry is never reported as missing. -/
theorem Strategy.not_mem_of_settlement {strategy : Strategy}
    (h : strategy.settlement t layers = .error (.recipientNotFound code)) :
    code ∉ t.accountCodes := by
  cases strategy with
  | direct => cases h
  | pendingInbound =>
    rcases bind_eq_error.1 h with h | ⟨settled, -, h⟩
    swap
    · cases h
    rcases bind_eq_error.1 h with h | ⟨paid, -, h⟩
    · obtain ⟨e, -, hpaid⟩ := exists_of_mapM_eq_error h
      exact not_mem_of_payOut hpaid
    rcases bind_eq_error.1 h with h | ⟨collected, -, h⟩
    · obtain ⟨e, -, hcollected⟩ := exists_of_mapM_eq_error h
      exact not_mem_of_collect hcollected
    · cases h
  | pendingBillPayment =>
    rcases bind_eq_error.1 h with h | ⟨settled, -, h⟩
    swap
    · cases h
    rcases bind_eq_error.1 h with h | ⟨lists, -, h⟩
    · obtain ⟨e, -, hsettled⟩ := exists_of_mapM_eq_error h
      exact absurd hsettled settleLeg_ne_recipientNotFound
    · cases h

end Missing

/-! ## Created transactions -/

namespace IsDraft

variable {s : LedgerService} {request : TransactionRequest} {chart : Chart} {t : Transaction}
  {strategy : Strategy} {plans : List EntryPlan} (hd : IsDraft s request chart t strategy plans)

include hd

/-- There is one account with the code on the transaction if the chart lists its bridges. -/
theorem account_eq_of_code (hbridges : chart.ListsBridges) {a : Account} (ha : chart.Lists a)
    {e : Entry} (he : e ∈ t.entries) (hcode : e.account.code = a.code) : e.account = a := by
  have hlists := (hd.lists_or_isLeftBridge he).resolve_right (hbridges.not_isLeftBridge e.account)
  exact hlists.eq_of_code ha hcode

theorem lists_of_named? {p : EntryPlan} (hp : p ∈ plans) {side : Side} {a : Account}
    (hnamed : p.named? strategy = some (side, a)) : chart.Lists a := by
  rcases (EntryPlan.of_named? hnamed).1 with ⟨-, rfl⟩ | ⟨-, rfl⟩
  · exact (hd.plan p hp).lists_credit.1
  · exact (hd.plan p hp).lists_debit.1

/-- The leg on which an account is named. -/
theorem exists_leg_of_named? {p : EntryPlan} (hp : p ∈ plans) {side : Side} {a : Account}
    (hnamed : p.named? strategy = some (side, a)) :
    ∃ x ∈ strategy.legsOf p, x.tags? = p.nameTags? strategy := by
  have hplan := hd.plan p hp
  exact EntryPlan.exists_leg_of_named? (Strategy.tags_of_legs hplan.lists_debit.2
    hplan.lists_credit.2 (EntryPlan.ne_direct_of_named? hnamed) (hd.legs p hp)) hnamed

/-- Who is to be credited has a leg on the pending layer. -/
theorem mem_accountCodes_of_named? {p : EntryPlan} (hp : p ∈ plans) {a : Account}
    (hnamed : p.named? strategy = some (.credit, a)) : a.code ∈ t.accountCodes := by
  obtain ⟨x, hx, -⟩ := hd.exists_leg_of_named? hp hnamed
  obtain ⟨y, hy, haccount, -⟩ := Strategy.exists_recipient (hd.legs p hp)
    (EntryPlan.ne_direct_of_named? hnamed) (List.ne_nil_of_mem hx)
  have ha : y.account = a := by
    rcases (EntryPlan.of_named? hnamed).1 with ⟨-, rfl⟩ | ⟨hside, -⟩
    · exact haccount
    · cases hside
  exact mem_accountCodes.2 ⟨_, hd.mem_entries hp hy, congrArg Account.code ha⟩

/-- A settlement posts to an account with the code that is named, on the base layer. -/
theorem exists_of_settlement
    (hunnamed : ∀ side : Side, (metadataTags request.metadata).get? side.lowerName = none)
    {p : EntryPlan} (hp : p ∈ plans) {side : Side} {a : Account}
    (hnamed : p.named? strategy = some (side, a)) (htrim : Text.trim a.code = a.code)
    (hmem : a.code ∈ t.accountCodes) {specs : List EntrySpec}
    (h : strategy.settlement t t.readLayers = .ok specs) :
    ∃ b, findAccount? t a.code = some b ∧ b.code = a.code ∧
      ∃ x ∈ specs, x.posting = ⟨b, side, p.amount, p.layer .base⟩ := by
  obtain ⟨x, hx, hown⟩ := hd.exists_leg_of_named? hp hnamed
  have hsettles : SettlesWith strategy ((request.blank t.journal).entryOf x) side a.code := by
    rw [← htrim]
    exact settlesWith_entryOf hunnamed hnamed hown
  obtain ⟨b, hb, hcode⟩ := exists_findAccount? hmem
  obtain ⟨own, hmoves, hpostings⟩ := hsettles.found t _ _ b (hd.baseLayerOf_leg hp hx) hb
  obtain ⟨own', hmoves', hall⟩ := Strategy.movements_of_settlement h (hd.mem_entries hp hx)
  obtain rfl := Except.ok.inj (hmoves.symm.trans hmoves')
  have hamount : x.amount = p.amount := (hd.isLegOf hp hx).amount
  obtain ⟨y, hy, hposting⟩ := List.mem_map.1 (hpostings.mem_iff.2 List.mem_cons_self)
  refine ⟨b, hb, hcode, y, hall y hy, ?_⟩
  rw [hposting, ← hamount]
  rfl

end IsDraft

/-- A completion posts the settlement of the strategy that is chosen, and nothing else. -/
theorem LedgerService.settlement_of_buildCompletion {s : LedgerService} {t c : Transaction}
    {reference : String} {layers : BaseLayers} {strategy : Strategy}
    (hlayers : s.baseLayersOf t = .ok layers)
    (hchosen : t.shape >>= chooseStrategy s.fallBack = .ok strategy)
    (h : s.buildCompletion t reference = .ok c) :
    ∃ specs, strategy.settlement t layers = .ok specs ∧
      c.postings = specs.map EntrySpec.posting := by
  rw [buildCompletion_eq hlayers hchosen reference] at h
  obtain ⟨specs, hspecs, h⟩ := bind_eq_ok.1 h
  obtain ⟨-, rfl⟩ := Transaction.post_eq_ok.1 h
  exact ⟨specs, hspecs, Transaction.postings_entryOf _ _⟩

/-! ## The main result -/

/-- **Completion resolves the account that was named, up to blanks.** Of the legs of a plan that
waits for completion, one names an account if the plan asks for it, and no other has tags. Posted
to a transaction without credit or debit tags of its own, the leg that names an account reads as
its code without the blanks at the ends, which is the code exactly if there are none, and is
settled with the account that is found under what is read. The other legs are passed over.

An account on a transaction, or another with the same code, is found under its code, and the code is
never reported as missing; who is to be credited is on every transaction that is created. So if the
code has no blanks at the ends, completing a created transaction with the strategy that created it
posts to an account with this code, and it is the very account that was named if the chart lists
its bridges. -/
theorem named_account_is_resolved (chart : Chart) :
    (∀ (strategy : Strategy) p legs (start : Transaction), strategy ≠ .direct →
      chart.finalAccount p.request.debit = .ok p.debit →
      chart.finalAccount p.request.credit = .ok p.credit →
      strategy.legs p = .ok legs → (∀ side : Side, start.tags.get? side.lowerName = none) →
      legs.filterMap EntrySpec.tags? = (p.nameTags? strategy).toList ∧
      (∀ x ∈ legs, x.tags? = none → IsPassedOver strategy (start.entryOf x)) ∧
      ∀ side a, p.named? strategy = some (side, a) →
        ∃ x ∈ legs, x.tags? = p.nameTags? strategy ∧
          SettlesWith strategy (start.entryOf x) side (Text.trim a.code) ∧
          ((start.entryOf x).tags.get? side.lowerName = some a.code ↔
            Text.trim a.code = a.code)) ∧
    (∀ (t : Transaction), ∀ code ∈ t.accountCodes,
      (∃ b, findAccount? t code = some b ∧ b.code = code) ∧
      ∀ (strategy : Strategy) layers,
        strategy.settlement t layers ≠ .error (.recipientNotFound code)) ∧
    ∀ (s : LedgerService) request lookup t, s.create request chart lookup = .ok t →
      (∀ side : Side, (metadataTags request.metadata).get? side.lowerName = none) →
      ∃ strategy plans, IsDraft s request chart t strategy plans ∧
        ∀ p ∈ plans, ∀ side a, p.named? strategy = some (side, a) →
          (side = .credit → a.code ∈ t.accountCodes) ∧
          (Text.trim a.code = a.code → a.code ∈ t.accountCodes →
            ∀ reference answers c t', t.shape >>= chooseStrategy s.fallBack = .ok strategy →
              s.complete t reference answers = (.ok (.completed c), t') →
              ∃ e ∈ c.entries, e.account.code = a.code ∧ e.side = side ∧ e.amount = p.amount ∧
                e.layer = p.layer .base ∧ (chart.ListsBridges → e.account = a)) := by
  refine ⟨?_, fun t code hmem => ⟨exists_findAccount? hmem, fun strategy layers h =>
    Strategy.not_mem_of_settlement h hmem⟩, ?_⟩
  · intro strategy p legs start hs hdebit hcredit hlegs hunnamed
    have hdebitCode := (Chart.lists_of_account? (Chart.finalAccount_eq_ok hdebit)).2
    have hcreditCode := (Chart.lists_of_account? (Chart.finalAccount_eq_ok hcredit)).2
    have htags := Strategy.tags_of_legs hdebitCode hcreditCode hs hlegs
    refine ⟨htags, fun x _ hx => isPassedOver_entryOf hunnamed hx, fun side a hnamed => ?_⟩
    obtain ⟨x, hx, hown⟩ := EntryPlan.exists_leg_of_named? htags hnamed
    have hsettles := settlesWith_entryOf hunnamed hnamed hown
    refine ⟨x, hx, hown, hsettles, ?_⟩
    rw [hsettles.read, Option.some.injEq]
  · intro s request lookup t ht hunnamed
    obtain ⟨-, strategy, plans, hd⟩ := LedgerService.exists_isDraft_of_create ht
    refine ⟨strategy, plans, hd, ?_⟩
    intro p hp side a hnamed
    refine ⟨fun hside => hd.mem_accountCodes_of_named? hp (hside ▸ hnamed), ?_⟩
    intro htrim hmem reference answers c t' hchosen hcomplete
    obtain ⟨-, happroved, -⟩ := LedgerService.complete_eq_completed.1 hcomplete
    obtain ⟨hbuilt, -⟩ := LedgerService.approve_completionDraft.1 happroved
    obtain ⟨specs, hspecs, hpostings⟩ :=
      LedgerService.settlement_of_buildCompletion hd.baseLayersOf hchosen hbuilt
    obtain ⟨b, hb, hcode, x, hx, hposting⟩ :=
      hd.exists_of_settlement hunnamed hp hnamed htrim hmem hspecs
    have hposted : x.posting ∈ c.postings := hpostings ▸ List.mem_map_of_mem hx
    obtain ⟨e, he, hsame⟩ := List.mem_map.1 hposted
    rw [hposting] at hsame
    obtain ⟨haccount, hside, hamount, hlayer⟩ := Posting.mk.inj hsame
    refine ⟨e, he, by rw [haccount, hcode], hside, hamount, hlayer, fun hbridges => ?_⟩
    obtain ⟨e', he', rfl⟩ := exists_of_findAccount? hb
    rw [haccount]
    exact hd.account_eq_of_code hbridges (hd.lists_of_named? hp hnamed) he' hcode

open SmallLedger in
/-- Money that comes in for the wallet is paid out to the wallet. -/
theorem named_account_is_resolved_smallLedger : ∃ t c t',
    service.create (deposit 40) chart silent = .ok t ∧
    service.complete t "T2" silent = (.ok (.completed c), t') ∧
    ∃ e ∈ c.entries, e.account = wallet ∧ e.side = .credit ∧ e.amount = dollars 40 ∧
      e.layer = .of .base usdId := by
  obtain ⟨t, c, t', ht, hcomplete⟩ := exists_completed (by decide +kernel : settles (deposit 40))
  obtain ⟨-, -, hresolved⟩ := named_account_is_resolved chart
  have hunnamed : ∀ side : Side,
      (metadataTags (deposit 40).metadata).get? side.lowerName = none := by
    intro side
    cases side <;> decide +kernel
  obtain ⟨strategy, plans, hd, hposts⟩ := hresolved service (deposit 40) silent t ht hunnamed
  obtain rfl : Strategy.pendingInbound = strategy :=
    Option.some.inj ((by decide +kernel : strategyFor? (deposit 40).shape =
      some .pendingInbound).symm.trans hd.strategy_eq)
  have htidy : chart.IsTidy := Chart.isTidy_ofList (by decide +kernel)
  have hchosen := hd.chooseStrategy_eq (by decide +kernel) htidy
    (LedgerService.exists_isDraft_of_create ht).1 service.fallBack
  -- there is one plan, and it names the wallet
  obtain ⟨p, rfl, hrequest⟩ : ∃ p, plans = [p] ∧ p.request = entry .amount payer wallet 40 :=
    List.map_eq_singleton_iff.1 hd.requests
  have hp := List.mem_singleton_self p
  have hplan := hd.plan p hp
  have hwallet : p.credit = wallet := by
    have hcredit := hplan.credit
    rw [hrequest] at hcredit
    exact Except.ok.inj (hcredit.symm.trans (by decide +kernel))
  have hcurrency : p.currency = usdId := by
    have hid := hplan.currency
    rw [hrequest] at hid
    exact Option.some.inj (hid.symm.trans (by decide +kernel))
  obtain ⟨hmem, hpays⟩ := hposts p hp .credit wallet
    (congrArg (fun a => some (Side.credit, a)) hwallet)
  obtain ⟨e, he, -, hside, hamount, hlayer, haccount⟩ :=
    hpays (by decide +kernel) (hmem rfl) "T2" silent c t' hchosen hcomplete
  refine ⟨t, c, t', ht, hcomplete, e, he, haccount fun _ _ _ hb => htidy.lists_bridge? hb, hside,
    ?_, ?_⟩
  · rw [hamount, EntryPlan.amount, hrequest]
    rfl
  · rw [hlayer, EntryPlan.layer, hcurrency]

namespace SmallLedger

/-- An account whose code is that of the payer after a blank. -/
def namesake : Account := account 9 " payer" .credit

/-- Money that comes in for the namesake, from the payer. -/
def namesakeDeposit (amount : Fin 256) : TransactionRequest :=
  request true .inbound [entry .amount payer namesake amount]

end SmallLedger

open SmallLedger in
/-- Money for an account with a blank in front of its code is paid to the account whose code is the
same without the blank. -/
theorem blank_names_another : ∃ t c t',
    service.create (namesakeDeposit 40) (.ofList (accounts ++ [namesake])) silent = .ok t ∧
    (∀ side : Side, (metadataTags (namesakeDeposit 40).metadata).get? side.lowerName = none) ∧
    namesake.code ∈ t.accountCodes ∧
    service.complete t "T2" silent = (.ok (.completed c), t') ∧
    (∀ e ∈ t.entries, e.tags.get? "credit" ≠ some namesake.code) ∧
    (∀ e ∈ c.entries, e.account = namesake → e.layer ≠ .of .base usdId) ∧
    ∃ e ∈ c.entries, e.account = payer ∧ e.side = .credit ∧ e.amount = dollars 40 ∧
      e.layer = .of .base usdId := by
  obtain ⟨t, ht, h⟩ := bind_eq_ok.1 (by decide +kernel : (do
    let t ← service.create (namesakeDeposit 40) (.ofList (accounts ++ [namesake])) silent
    let c ← service.approve silent (service.completionDraft t "T2")
    return decide (t.isCompleted = false ∧ namesake.code ∈ t.accountCodes ∧
      (∀ e ∈ t.entries, e.tags.get? "credit" ≠ some namesake.code) ∧
      (∀ e ∈ c.entries, e.account = namesake → e.layer ≠ .of .base usdId) ∧
      ∃ e ∈ c.entries, e.account = payer ∧ e.side = .credit ∧ e.amount = dollars 40 ∧
        e.layer = .of .base usdId)) = (.ok true : Except Failure Bool))
  obtain ⟨c, hc, h⟩ := bind_eq_ok.1 h
  obtain ⟨hopen, hmem, hread, hunpaid, hpaid⟩ := of_decide_eq_true (Except.ok.inj h)
  refine ⟨t, c, _, ht, ?_, hmem, LedgerService.complete_eq_completed.2 ⟨hopen, hc, rfl⟩, hread,
    hunpaid, hpaid⟩
  intro side
  cases side <;> decide +kernel

end LayeredLedger
