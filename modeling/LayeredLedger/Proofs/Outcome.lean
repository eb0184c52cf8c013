import LayeredLedger.Error
import Mathlib

/-!
# Outcomes taken apart

Operations of the ledger are sequences of steps each of which can fail. These lemmas say what is
known when such a sequence succeeds or fails, so that no other module opens the sequences itself.

* `bind_eq_ok`, `bind_eq_error`: both steps succeed, or one of them fails;
* `mapM_eq_ok_iff`, `mapM_eq_ok_map`, `mapM_eq_ok_inverse`, `map_eq_of_mapM`,
  `exists_mapM_eq_ok_iff`, `forM_eq_ok_iff`: all steps of a list succeed;
* `map_mapM`: what is made of all results;
* `forM_eq_error_iff`: the first step that fails;
* `exists_of_mapM_eq_ok`: a step has its result;
* `exists_of_mem_mapM`, `exists_of_mapM_eq_error`, `exists_of_forM_eq_error`,
  `exists_of_foldlM_eq_error`: a result, or a failure, has a step it is from;
* `foldlM_cases`: the first step that fails;
* `orError_eq_ok`, `orOverflow_eq_ok`: a step among others that fail in another way;
* `decidableOfOk`, `decidableExistsOk`: testing the result of a step.
-/

namespace LayeredLedger

universe u v w

variable {ε : Type u} {α : Type v} {β : Type v}

/-! ## Two steps -/

theorem bind_eq_ok {x : Except ε α} {f : α → Except ε β} {b : β} :
    x >>= f = .ok b ↔ ∃ a, x = .ok a ∧ f a = .ok b := by
  cases x with
  | error e => simp [bind, Except.bind]
  | ok a => simp [bind, Except.bind]

theorem bind_eq_error {x : Except ε α} {f : α → Except ε β} {e : ε} :
    x >>= f = .error e ↔ x = .error e ∨ ∃ a, x = .ok a ∧ f a = .error e := by
  cases x with
  | error e' => simp [bind, Except.bind]
  | ok a => simp [bind, Except.bind]

theorem map_eq_ok {α : Type v} {β : Type w} {x : Except ε α} {f : α → β} {b : β} :
    x.map f = .ok b ↔ ∃ a, x = .ok a ∧ f a = b := by
  cases x with
  | error e => simp [Except.map]
  | ok a => simp [Except.map]

theorem map_eq_error {α : Type v} {β : Type w} {x : Except ε α} {f : α → β} {e : ε} :
    x.map f = .error e ↔ x = .error e := by
  cases x <;> simp [Except.map]

@[simp] theorem orError_ok {α : Type} (a : α) : orError (.ok a) = .ok a := rfl

@[simp] theorem orError_error {α : Type} (e : LedgerError) :
    orError (.error e : Except LedgerError α) = .error (.error e) := rfl

@[simp] theorem orOverflow_ok {α : Type} (a : α) : orOverflow (.ok a) = .ok a := rfl

@[simp] theorem orOverflow_error {α : Type} (o : Overflow) :
    orOverflow (.error o : Except Overflow α) = .error (.overflow o) := rfl

theorem orError_eq_ok {α : Type} {x : Except LedgerError α} {a : α} :
    orError x = .ok a ↔ x = .ok a := by
  cases x <;> simp

theorem orError_eq_error {α : Type} {x : Except LedgerError α} {f : Failure} :
    orError x = .error f ↔ ∃ e, x = .error e ∧ f = .error e := by
  cases x <;> simp [eq_comm]

theorem orOverflow_eq_error {α : Type} {x : Except Overflow α} {f : Failure} :
    orOverflow x = .error f ↔ ∃ o, x = .error o ∧ f = .overflow o := by
  cases x <;> simp [eq_comm]

theorem orOverflow_eq_ok {α : Type} {x : Except Overflow α} {a : α} :
    orOverflow x = .ok a ↔ x = .ok a := by
  cases x <;> simp

/-- What is asked of the result of a step can be tested if it can be tested of every result. -/
instance decidableOfOk {x : Except ε α} {P : α → Prop} [DecidablePred P] :
    Decidable (∀ a, x = .ok a → P a) :=
  match x with
  | .ok a => decidable_of_iff (P a) ⟨fun h _ e => Except.ok.inj e ▸ h, fun h => h a rfl⟩
  | .error _ => .isTrue fun _ e => nomatch e

instance decidableExistsOk {x : Except ε α} : Decidable (∃ a, x = .ok a) :=
  match x with
  | .ok a => .isTrue ⟨a, rfl⟩
  | .error _ => .isFalse fun ⟨_, h⟩ => nomatch h

/-! ## Lists of steps -/

theorem mapM_eq_ok_iff {f : α → Except ε β} {l : List α} {ys : List β} :
    l.mapM f = .ok ys ↔ List.Forall₂ (fun x y => f x = .ok y) l ys := by
  induction l generalizing ys with
  | nil => simp [pure, Except.pure, eq_comm]
  | cons x l ih =>
    rw [List.mapM_cons, bind_eq_ok]
    constructor
    · rintro ⟨y, hy, h⟩
      obtain ⟨rest, hrest, h⟩ := bind_eq_ok.1 h
      obtain rfl : y :: rest = ys := by simpa [pure, Except.pure] using h
      exact .cons hy (ih.1 hrest)
    · rintro (_ | ⟨hy, hrest⟩)
      exact ⟨_, hy, bind_eq_ok.2 ⟨_, ih.2 hrest, rfl⟩⟩

/-- Steps that all succeed give the list of their results. -/
theorem mapM_eq_ok_map {f : α → Except ε β} {g : α → β} {l : List α}
    (h : ∀ x ∈ l, f x = .ok (g x)) : l.mapM f = .ok (l.map g) := by
  rw [mapM_eq_ok_iff, List.forall₂_map_right_iff, List.forall₂_same]
  exact h

/-- Results from which the arguments can be read back. -/
theorem mapM_eq_ok_inverse {f : α → Except ε β} {g : β → α} {l : List α} {ys : List β}
    (h : l.mapM f = .ok ys) (hg : ∀ x y, f x = .ok y → g y = x) :
    ys.map g = l ∧ ∀ y ∈ ys, f (g y) = .ok y := by
  have hl := mapM_eq_ok_iff.1 h
  clear h
  induction hl with
  | nil => simp
  | @cons x y l ys hxy _ ih =>
    have e := hg x y hxy
    refine ⟨by rw [List.map_cons, e, ih.1], fun z hz => ?_⟩
    rcases List.mem_cons.1 hz with rfl | hz
    · rw [e, hxy]
    · exact ih.2 z hz

/-- What every result says of its argument, the list of results says of the arguments. -/
theorem map_eq_of_mapM {γ : Type w} {f : α → Except ε β} {g : β → γ} {k : α → γ} {l : List α}
    {ys : List β} (h : l.mapM f = .ok ys) (hg : ∀ x ∈ l, ∀ y, f x = .ok y → g y = k x) :
    ys.map g = l.map k := by
  have hl := mapM_eq_ok_iff.1 h
  clear h
  induction hl with
  | nil => rfl
  | @cons x y l ys hxy _ ih =>
    rw [List.map_cons, List.map_cons, hg x (by simp) y hxy, ih fun z hz => hg z (by simp [hz])]

/-- Every result is the result of some step. -/
theorem exists_of_mem_mapM {f : α → Except ε β} {l : List α} {ys : List β}
    (h : l.mapM f = .ok ys) {y : β} (hy : y ∈ ys) : ∃ x ∈ l, f x = .ok y := by
  have hl := mapM_eq_ok_iff.1 h
  clear h
  induction hl with
  | nil => simp at hy
  | @cons x y' l ys hxy _ ih =>
    rcases List.mem_cons.1 hy with rfl | hy
    · exact ⟨x, by simp, hxy⟩
    · obtain ⟨x', hx', h⟩ := ih hy
      exact ⟨x', by simp [hx'], h⟩

/-- Every step has its result. -/
theorem exists_of_mapM_eq_ok {f : α → Except ε β} {l : List α} {ys : List β}
    (h : l.mapM f = .ok ys) {x : α} (hx : x ∈ l) : ∃ y ∈ ys, f x = .ok y := by
  have hl := mapM_eq_ok_iff.1 h
  clear h
  induction hl with
  | nil => simp at hx
  | @cons x' y l ys hxy _ ih =>
    rcases List.mem_cons.1 hx with rfl | hx
    · exact ⟨y, by simp, hxy⟩
    · obtain ⟨y', hy', h⟩ := ih hx
      exact ⟨y', by simp [hy'], h⟩

/-- A list of steps succeeds if every step does. -/
theorem exists_mapM_eq_ok_iff {f : α → Except ε β} {l : List α} :
    (∃ ys, l.mapM f = .ok ys) ↔ ∀ x ∈ l, ∃ y, f x = .ok y := by
  induction l with
  | nil => simp [pure, Except.pure]
  | cons x l ih =>
    rw [List.forall_mem_cons, ← ih, List.mapM_cons]
    constructor
    · rintro ⟨ys, h⟩
      obtain ⟨y, hy, h⟩ := bind_eq_ok.1 h
      obtain ⟨rest, hrest, -⟩ := bind_eq_ok.1 h
      exact ⟨⟨y, hy⟩, rest, hrest⟩
    · rintro ⟨⟨y, hy⟩, rest, hrest⟩
      exact ⟨y :: rest, bind_eq_ok.2 ⟨y, hy, bind_eq_ok.2 ⟨rest, hrest, rfl⟩⟩⟩

/-- A list of steps fails only as one of its steps does. -/
theorem exists_of_mapM_eq_error {f : α → Except ε β} {l : List α} {e : ε}
    (h : l.mapM f = .error e) : ∃ x ∈ l, f x = .error e := by
  induction l with
  | nil => simp [pure, Except.pure] at h
  | cons x l ih =>
    rw [List.mapM_cons, bind_eq_error] at h
    rcases h with h | ⟨y, -, h⟩
    · exact ⟨x, by simp, h⟩
    rcases bind_eq_error.1 h with h | ⟨ys, -, h⟩
    · obtain ⟨x', hx', h⟩ := ih h
      exact ⟨x', by simp [hx'], h⟩
    · cases h

/-- What is made of every result can be made within the steps. -/
theorem map_mapM {γ : Type v} {f : α → Except ε β} {g : β → γ} (l : List α) :
    (l.mapM f).map (List.map g) = l.mapM fun x => (f x).map g := by
  induction l with
  | nil => rfl
  | cons x l ih =>
    rw [List.mapM_cons, List.mapM_cons, ← ih]
    cases f x with
    | error e => rfl
    | ok y => cases l.mapM f <;> rfl

/-- Things and their places, next to the things. -/
theorem forall₂_zipIdx {R : α → α × Nat → Prop} {l : List α} (h : ∀ x i, R x (x, i)) (n : Nat) :
    List.Forall₂ R l (l.zipIdx n) := by
  induction l generalizing n with
  | nil => exact .nil
  | cons x l ih => exact .cons (h x n) (ih (n + 1))

theorem forM_eq_ok_iff {f : α → Except ε PUnit} {l : List α} :
    l.forM f = .ok ⟨⟩ ↔ ∀ x ∈ l, f x = .ok ⟨⟩ := by
  induction l with
  | nil => simp [pure, Except.pure]
  | cons x l ih =>
    rw [List.forM_eq_forM] at ih ⊢
    rw [List.forM_cons, bind_eq_ok, List.forall_mem_cons, ← ih]
    exact ⟨fun ⟨_, h⟩ => h, fun h => ⟨⟨⟩, h⟩⟩

/-- A list of steps fails as the first of its steps that fails. -/
theorem forM_eq_error_iff {f : α → Except ε PUnit} {l : List α} {e : ε} :
    l.forM f = .error e ↔ ∃ before x after, l = before ++ x :: after ∧
      (∀ y ∈ before, f y = .ok ⟨⟩) ∧ f x = .error e := by
  induction l with
  | nil => simp [pure, Except.pure]
  | cons y l ih =>
    rw [List.forM_eq_forM] at ih ⊢
    rw [List.forM_cons, bind_eq_error]
    constructor
    · rintro (h | ⟨_, hy, h⟩)
      · exact ⟨[], y, l, rfl, by simp, h⟩
      · obtain ⟨before, x, after, rfl, hbefore, hx⟩ := ih.1 h
        exact ⟨y :: before, x, after, rfl, List.forall_mem_cons.2 ⟨hy, hbefore⟩, hx⟩
    · rintro ⟨_ | ⟨y', before⟩, x, after, hl, hbefore, hx⟩
      · obtain ⟨rfl, rfl⟩ := List.cons.inj hl
        exact .inl hx
      · obtain ⟨rfl, rfl⟩ := List.cons.inj hl
        obtain ⟨hy, hbefore⟩ := List.forall_mem_cons.1 hbefore
        exact .inr ⟨⟨⟩, hy, ih.2 ⟨before, x, after, rfl, hbefore, hx⟩⟩

theorem exists_of_forM_eq_error {f : α → Except ε PUnit} {l : List α} {e : ε}
    (h : l.forM f = .error e) : ∃ x ∈ l, f x = .error e := by
  obtain ⟨before, x, after, rfl, -, hx⟩ := forM_eq_error_iff.1 h
  exact ⟨x, by simp, hx⟩

/-- Steps in a row fail only as one of them does. -/
theorem exists_of_foldlM_eq_error {f : β → α → Except ε β} {l : List α} {b : β} {e : ε}
    (h : l.foldlM f b = .error e) : ∃ b', ∃ x ∈ l, f b' x = .error e := by
  induction l generalizing b with
  | nil => cases h
  | cons x l ih =>
    rw [List.foldlM_cons] at h
    rcases bind_eq_error.1 h with h | ⟨next, -, h⟩
    · exact ⟨b, x, by simp, h⟩
    · obtain ⟨b', x', hx', h⟩ := ih h
      exact ⟨b', x', by simp [hx'], h⟩

/-- Steps in a row that fail as soon as they meet something bad. -/
theorem foldlM_cases {f : β → α → Except ε β} {bad : α → Bool} {err : α → ε}
    (hbad : ∀ b x, bad x = true → f b x = .error (err x))
    (hgood : ∀ b x, bad x = false → ∃ b', f b x = .ok b') (l : List α) (b : β) :
    (∃ x, l.find? bad = some x ∧ l.foldlM f b = .error (err x)) ∨
      l.find? bad = none ∧ ∃ b', l.foldlM f b = .ok b' := by
  induction l generalizing b with
  | nil => exact .inr ⟨rfl, b, rfl⟩
  | cons x l ih =>
    rw [List.foldlM_cons]
    cases hx : bad x with
    | true =>
      rw [List.find?_cons_of_pos hx, hbad b x hx]
      exact .inl ⟨x, rfl, rfl⟩
    | false =>
      obtain ⟨b', hb'⟩ := hgood b x hx
      rw [List.find?_cons_of_neg (by simp [hx]), hb']
      exact ih b'

end LayeredLedger
