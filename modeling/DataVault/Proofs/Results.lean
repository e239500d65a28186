/-
DataVault.Proofs.Results — what a success says.

A function of the library that can fail is a chain of steps, each of which
can. The proofs read such a chain from its result: `bind_eq_ok_iff` gives
the result of the first step and says that the others go on from it, and
`mapM_eq_ok_iff` relates the members of a list to their results position by
position (`List.Forall₂`). The evaluation of queries fails in `Option`, for
which the same law of lists is stated.

A chain fails with the error of the first step that does
(`bind_eq_error_iff`), and a list with that of its first member that does
(`mapM_eq_error_iff`, in the words of `FirstFault`).
-/
import Mathlib.Data.List.Forall2

namespace DataVault.Results

variable {α β ε ε' : Type}

/-! ## 1. Steps -/

/-- Two steps succeed exactly when the first does, and the second from its
result. -/
theorem bind_eq_ok_iff {x : Except ε α} {f : α → Except ε β} {b : β} :
    (x >>= f) = .ok b ↔ ∃ a, x = .ok a ∧ f a = .ok b := by
  cases x <;> simp [bind, Except.bind]

theorem pure_eq_ok_iff {a b : α} : (pure a : Except ε α) = .ok b ↔ a = b := by
  simp [pure, Except.pure]

theorem map_eq_ok_iff {x : Except ε α} {f : α → β} {b : β} :
    x.map f = .ok b ↔ ∃ a, x = .ok a ∧ f a = b := by
  cases x <;> simp [Except.map]

/-- Another error leaves the successes. -/
theorem mapError_eq_ok_iff {x : Except ε α} {f : ε → ε'} {a : α} :
    x.mapError f = .ok a ↔ x = .ok a := by
  cases x <;> simp [Except.mapError]

/-- A success has a result. -/
theorem exists_of_isOk {x : Except ε α} (h : x.isOk = true) : ∃ a, x = .ok a := by
  cases x with
  | error e => cases h
  | ok a => exact ⟨a, rfl⟩

theorem bind_eq_error_iff {x : Except ε α} {f : α → Except ε β} {e : ε} :
    (x >>= f) = .error e ↔ x = .error e ∨ ∃ a, x = .ok a ∧ f a = .error e := by
  cases x <;> simp [bind, Except.bind]

theorem pure_ne_error {a : α} {e : ε} : (pure a : Except ε α) ≠ .error e := nofun

theorem mapError_eq_error_iff {x : Except ε α} {f : ε → ε'} {e : ε'} :
    x.mapError f = .error e ↔ ∃ e', x = .error e' ∧ f e' = e := by
  cases x <;> simp [Except.mapError]

/-- Every error of the result is of a sort. -/
def FailsWith (P : ε → Prop) (x : Except ε α) : Prop := ∀ e, x = .error e → P e

theorem failsWith_ok {P : ε → Prop} (a : α) : FailsWith P (.ok a) := nofun

theorem failsWith_error {P : ε → Prop} {e : ε} (h : P e) :
    FailsWith P (.error e : Except ε α) := by
  rintro _ ⟨⟩
  exact h

/-- The errors of two steps are those of either. -/
theorem FailsWith.bind {P : ε → Prop} {x : Except ε α} {f : α → Except ε β} (hx : FailsWith P x)
    (hf : ∀ a, FailsWith P (f a)) : FailsWith P (x >>= f) := by
  cases x with
  | error e => exact failsWith_error (hx e rfl)
  | ok a => exact hf a

theorem failsWith_mapError {P : ε' → Prop} {f : ε → ε'} (h : ∀ e, P (f e)) (x : Except ε α) :
    FailsWith P (x.mapError f) := by
  cases x with
  | error e => exact failsWith_error (h e)
  | ok a => exact failsWith_ok a

/-! ## 2. Lists -/

theorem failsWith_mapM {P : ε → Prop} {f : α → Except ε β} (h : ∀ a, FailsWith P (f a))
    (as : List α) : FailsWith P (as.mapM f) := by
  induction as with
  | nil => exact failsWith_ok []
  | cons a as ih =>
    rw [List.mapM_cons]
    exact (h a).bind fun b => ih.bind fun bs => failsWith_ok (b :: bs)

/-- Every member succeeds exactly when the whole list does. -/
theorem mapM_eq_ok_iff {f : α → Except ε β} {as : List α} {bs : List β} :
    as.mapM f = .ok bs ↔ List.Forall₂ (fun a b => f a = .ok b) as bs := by
  induction as generalizing bs with
  | nil =>
    rw [List.mapM_nil, pure_eq_ok_iff, List.forall₂_nil_left_iff]
    exact eq_comm
  | cons a as ih =>
    simp only [List.mapM_cons, bind_eq_ok_iff, pure_eq_ok_iff, ih, List.forall₂_cons_left_iff]
    constructor
    · rintro ⟨b, hb, rest, hrest, rfl⟩
      exact ⟨b, rest, hb, hrest, rfl⟩
    · rintro ⟨b, rest, hb, hrest, rfl⟩
      exact ⟨b, hb, rest, hrest, rfl⟩

/-- The fault of a list is that of the first member that has one. -/
def FirstFault (R : α → ε → Prop) (as : List α) (e : ε) : Prop :=
  ∃ before a after, as = before ++ a :: after ∧ (∀ b ∈ before, ∀ e', ¬ R b e') ∧ R a e

theorem not_firstFault_nil {R : α → ε → Prop} {e : ε} : ¬ FirstFault R [] e := by
  rintro ⟨before, a, after, hsplit, -⟩
  cases before <;> cases hsplit

/-- The first member has the fault, or it has none and the others do. -/
theorem firstFault_cons_iff {R : α → ε → Prop} {a : α} {as : List α} {e : ε} :
    FirstFault R (a :: as) e ↔ R a e ∨ (∀ e', ¬ R a e') ∧ FirstFault R as e := by
  constructor
  · rintro ⟨_ | ⟨b, before⟩, c, after, hsplit, hbefore, hfault⟩
    · cases hsplit
      exact .inl hfault
    · obtain ⟨rfl, rfl⟩ := List.cons.inj hsplit
      obtain ⟨hb, hrest⟩ := List.forall_mem_cons.mp hbefore
      exact .inr ⟨hb, before, c, after, rfl, hrest, hfault⟩
  · rintro (hfault | ⟨hnone, before, c, after, rfl, hbefore, hfault⟩)
    · exact ⟨[], a, as, rfl, nofun, hfault⟩
    · exact ⟨a :: before, c, after, rfl, List.forall_mem_cons.mpr ⟨hnone, hbefore⟩, hfault⟩

/-- A list has a fault exactly when one of its members has. -/
theorem exists_firstFault_iff {R : α → ε → Prop} {as : List α} :
    (∃ e, FirstFault R as e) ↔ ∃ a ∈ as, ∃ e, R a e := by
  induction as with
  | nil => simp [not_firstFault_nil]
  | cons a as ih =>
    simp only [firstFault_cons_iff, exists_or, exists_and_left, ih, List.exists_mem_cons_iff]
    by_cases hfault : ∃ e, R a e
    · simp [hfault]
    · simp [not_exists.mp hfault]

/-- A list fails with the error of its first member that does. -/
theorem mapM_eq_error_iff {f : α → Except ε β} {as : List α} {e : ε} :
    as.mapM f = .error e ↔ FirstFault (fun a e => f a = .error e) as e := by
  induction as with
  | nil => simp [not_firstFault_nil, pure_ne_error]
  | cons a as ih =>
    simp only [List.mapM_cons, bind_eq_error_iff, pure_ne_error, and_false, exists_false, or_false,
      ih, firstFault_cons_iff]
    cases f a <;> simp

/-- The list has results exactly when each of its members has one. -/
theorem exists_mapM_eq_ok_iff {f : α → Except ε β} {as : List α} :
    (∃ bs, as.mapM f = .ok bs) ↔ ∀ a ∈ as, ∃ b, f a = .ok b := by
  induction as with
  | nil => simp [pure_eq_ok_iff]
  | cons a as ih =>
    simp only [List.mapM_cons, bind_eq_ok_iff, pure_eq_ok_iff, List.forall_mem_cons, ← ih]
    constructor
    · rintro ⟨_, b, hb, bs, hbs, rfl⟩
      exact ⟨⟨b, hb⟩, bs, hbs⟩
    · rintro ⟨⟨b, hb⟩, bs, hbs⟩
      exact ⟨b :: bs, b, hb, bs, hbs, rfl⟩

/-- Every member has a result exactly when the list of results exists. -/
theorem mapM_eq_some_iff {f : α → Option β} {as : List α} {bs : List β} :
    as.mapM f = some bs ↔ List.Forall₂ (fun a b => f a = some b) as bs := by
  induction as generalizing bs with
  | nil =>
    rw [List.mapM_nil, Option.pure_def, Option.some_inj, List.forall₂_nil_left_iff]
    exact eq_comm
  | cons a as ih =>
    simp only [List.mapM_cons, Option.bind_eq_bind, Option.bind_eq_some_iff, Option.pure_def,
      Option.some_inj, ih, List.forall₂_cons_left_iff]
    constructor
    · rintro ⟨b, hb, rest, hrest, rfl⟩
      exact ⟨b, rest, hb, hrest, rfl⟩
    · rintro ⟨b, rest, hb, hrest, rfl⟩
      exact ⟨b, hb, rest, hrest, rfl⟩

/-- A function that succeeds on every member of a list maps the list. -/
theorem mapM_eq_some_map {f : α → Option β} {g : α → β} {as : List α}
    (h : ∀ a ∈ as, f a = some (g a)) : as.mapM f = some (as.map g) := by
  rw [mapM_eq_some_iff, List.forall₂_map_right_iff, List.forall₂_same]
  exact h

/-- Results that exist one by one exist together, with what holds of each. -/
theorem exists_mapM_eq_some {f : α → Option β} {R : α → β → Prop} : ∀ {as : List α},
    (∀ a ∈ as, ∃ b, f a = some b ∧ R a b) → ∃ bs, as.mapM f = some bs ∧ List.Forall₂ R as bs
  | [], _ => ⟨[], by simp, .nil⟩
  | a :: as, h => by
      rw [List.forall_mem_cons] at h
      obtain ⟨⟨b, hb, hR⟩, hrest⟩ := h
      obtain ⟨bs, hbs, hall⟩ := exists_mapM_eq_some hrest
      refine ⟨b :: bs, ?_, .cons hR hall⟩
      rw [mapM_eq_some_iff] at hbs ⊢
      exact .cons hb hbs

end DataVault.Results
