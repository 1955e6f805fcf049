import Mathlib

/-! # Computations that succeed and fail

A computation that may fail succeeds exactly if each of its steps does. The lemmas take a
successful computation apart, so that a function's results are known without unfolding its monad.
`FailsOnly` bounds what a computation can fail with by what its steps can.
-/

namespace ContentQuery

variable {ε α β : Type}

/-- A computation gives a result if its first part does and the second does with that. -/
@[simp] theorem bind_eq_ok_iff {x : Except ε α} {f : α → Except ε β} {b : β} :
    x >>= f = .ok b ↔ ∃ a, x = .ok a ∧ f a = .ok b := by
  cases x <;> simp [bind, Except.bind]

@[simp] theorem pure_eq_ok_iff {a b : α} : (pure a : Except ε α) = .ok b ↔ a = b := by
  simp [pure, Except.pure]

@[simp] theorem pure_ne_error {a : α} {e : ε} : (pure a : Except ε α) ≠ .error e := by
  simp [pure, Except.pure]

@[simp] theorem throw_ne_ok {e : ε} {b : β} : (throw e : Except ε β) ≠ .ok b := by
  simp [throw, throwThe, MonadExceptOf.throw]

theorem map_eq_ok_iff {f : α → β} {x : Except ε α} {b : β} :
    x.map f = .ok b ↔ ∃ a, x = .ok a ∧ f a = b := by
  cases x <;> simp [Except.map]

theorem mapError_eq_ok_iff {ε' : Type} {g : ε → ε'} {x : Except ε α} {a : α} :
    x.mapError g = .ok a ↔ x = .ok a := by
  cases x <;> simp [Except.mapError]

/-- A computation over a list succeeds if it does so on every member. -/
theorem mapM_eq_ok_iff {f : α → Except ε β} {xs : List α} {ys : List β} :
    xs.mapM f = .ok ys ↔ List.Forall₂ (fun x y => f x = .ok y) xs ys := by
  induction xs generalizing ys with
  | nil => rw [List.mapM_nil, pure_eq_ok_iff, List.forall₂_nil_left_iff, eq_comm]
  | cons x xs ih =>
    simp only [List.mapM_cons, bind_eq_ok_iff, pure_eq_ok_iff, ih]
    constructor
    · rintro ⟨y, hy, ys, hys, rfl⟩
      exact .cons hy hys
    · rintro (_ | ⟨hy, hys⟩)
      exact ⟨_, hy, _, hys, rfl⟩

theorem exists_mapM_eq_ok {f : α → Except ε β} {xs : List α} (h : ∀ x ∈ xs, ∃ y, f x = .ok y) :
    ∃ ys, xs.mapM f = .ok ys := by
  induction xs with
  | nil => exact ⟨[], rfl⟩
  | cons x xs ih =>
    rw [List.forall_mem_cons] at h
    obtain ⟨⟨y, hy⟩, htail⟩ := h
    obtain ⟨ys, hys⟩ := ih htail
    refine ⟨y :: ys, ?_⟩
    rw [List.mapM_cons, bind_eq_ok_iff]
    exact ⟨y, hy, bind_eq_ok_iff.mpr ⟨ys, hys, rfl⟩⟩

theorem mapM_congr {f g : α → Except ε β} {xs : List α} (h : ∀ x ∈ xs, f x = g x) :
    xs.mapM f = xs.mapM g := by
  induction xs with
  | nil => rfl
  | cons x xs ih =>
    rw [List.forall_mem_cons] at h
    rw [List.mapM_cons, List.mapM_cons, h.1, ih h.2]

/-- What every result of a member has, every member of the results has. -/
theorem forall_mem_of_forall₂ {R : α → β → Prop} {P : β → Prop} {xs : List α} {ys : List β}
    (h : List.Forall₂ R xs ys) (hP : ∀ x ∈ xs, ∀ y, R x y → P y) : ∀ y ∈ ys, P y := by
  induction h with
  | nil => simp
  | cons hxy _ ih =>
    rw [List.forall_mem_cons] at hP ⊢
    exact ⟨hP.1 _ hxy, ih hP.2⟩

/-- Every result of a computation over a list is that of a member. -/
theorem exists_mem_of_mapM {f : α → Except ε β} {xs : List α} {ys : List β}
    (h : xs.mapM f = .ok ys) : ∀ y ∈ ys, ∃ x ∈ xs, f x = .ok y :=
  forall_mem_of_forall₂ (mapM_eq_ok_iff.mp h) fun x hx _ hy => ⟨x, hx, hy⟩

/-- If every result of a member has a counterpart, the results have counterparts. -/
theorem exists_forall₂ {R R' : α → β → Prop} {S : β → β → Prop} {xs : List α} {ys : List β}
    (h : List.Forall₂ R xs ys) (hR : ∀ x y, R x y → ∃ y', R' x y' ∧ S y y') :
    ∃ ys', List.Forall₂ R' xs ys' ∧ List.Forall₂ S ys ys' := by
  induction h with
  | nil => exact ⟨[], .nil, .nil⟩
  | cons hxy _ ih =>
    obtain ⟨y', hy', hS⟩ := hR _ _ hxy
    obtain ⟨ys', hys', hSs⟩ := ih
    exact ⟨y' :: ys', .cons hy' hys', .cons hS hSs⟩

/-- A computation over a list in another order gives its results in another order. -/
theorem mapM_perm {f : α → Except ε β} {xs xs' : List α} {ys : List β} (hperm : xs.Perm xs')
    (h : xs.mapM f = .ok ys) : ∃ ys', xs'.mapM f = .ok ys' ∧ ys.Perm ys' := by
  obtain ⟨ys', hys', hresults⟩ := List.perm_comp_forall₂ hperm.symm (mapM_eq_ok_iff.mp h)
  exact ⟨ys', mapM_eq_ok_iff.mpr hys', hresults.symm⟩

/-- Every order of the results is that of the members in some order. -/
theorem exists_perm_forall₂ {R : α → β → Prop} {xs : List α} {ys ys' : List β}
    (h : List.Forall₂ R xs ys) (hperm : ys.Perm ys') :
    ∃ xs', xs.Perm xs' ∧ List.Forall₂ R xs' ys' := by
  have hcomp : Relation.Comp (List.Forall₂ R) List.Perm xs ys' := ⟨ys, h, hperm⟩
  rwa [List.forall₂_comp_perm_eq_perm_comp_forall₂] at hcomp

/-- Every order of the results is that of some order of the elements. -/
theorem exists_perm_mapM {f : α → Except ε β} {xs : List α} {ys ys' : List β}
    (h : xs.mapM f = .ok ys) (hperm : ys.Perm ys') :
    ∃ xs', xs.Perm xs' ∧ xs'.mapM f = .ok ys' := by
  obtain ⟨xs', hxs, hys'⟩ := exists_perm_forall₂ (mapM_eq_ok_iff.mp h) hperm
  exact ⟨xs', hxs, mapM_eq_ok_iff.mpr hys'⟩

theorem exists_perm_map {g : α → β} {xs : List α} {ys' : List β} (hperm : (xs.map g).Perm ys') :
    ∃ xs', xs.Perm xs' ∧ xs'.map g = ys' := by
  have h : List.Forall₂ (fun x y => g x = y) xs (xs.map g) :=
    List.forall₂_map_right_iff.mpr (List.forall₂_same.mpr fun _ _ => rfl)
  obtain ⟨xs', hxs, hys'⟩ := exists_perm_forall₂ h hperm
  rw [← List.forall₂_map_left_iff (R := Eq), List.forall₂_eq_eq_eq] at hys'
  exact ⟨xs', hxs, hys'⟩

/-! ## The first error -/

/-- A computation fails in its first part, or in the second with the result of the first. -/
theorem bind_eq_error_iff {x : Except ε α} {f : α → Except ε β} {e : ε} :
    x >>= f = .error e ↔ x = .error e ∨ ∃ a, x = .ok a ∧ f a = .error e := by
  cases x <;> simp [bind, Except.bind]

/-- A computation over a list fails with the error of the first member on which it fails. -/
theorem mapM_eq_error_iff {f : α → Except ε β} {xs : List α} {e : ε} :
    xs.mapM f = .error e ↔ ∃ before x after, xs = before ++ x :: after ∧ f x = .error e ∧
      ∀ y ∈ before, ∃ z, f y = .ok z := by
  induction xs with
  | nil => simp
  | cons x xs ih =>
    rw [List.mapM_cons, bind_eq_error_iff]
    constructor
    · rintro (hx | ⟨y, hy, hrest⟩)
      -- the first element fails, or one behind it
      · exact ⟨[], x, xs, rfl, hx, by simp⟩
      · rw [bind_eq_error_iff] at hrest
        rcases hrest with hrest | ⟨ys, -, hpure⟩
        · obtain ⟨before, z, after, rfl, hz, hbefore⟩ := ih.mp hrest
          exact ⟨x :: before, z, after, rfl, hz, List.forall_mem_cons.mpr ⟨⟨y, hy⟩, hbefore⟩⟩
        · exact absurd hpure pure_ne_error
    · rintro ⟨before, z, after, hxs, hz, hbefore⟩
      cases before with
      | nil =>
        obtain ⟨rfl, -⟩ := List.cons.inj hxs
        exact .inl hz
      | cons w before =>
        obtain ⟨rfl, rfl⟩ := List.cons.inj hxs
        rw [List.forall_mem_cons] at hbefore
        obtain ⟨y, hy⟩ := hbefore.1
        exact .inr ⟨y, hy, bind_eq_error_iff.mpr (.inl (ih.mpr ⟨before, z, after, rfl, hz, hbefore.2⟩))⟩

/-- Computations over the lines of a table fail like one over all its cells, line by line. -/
theorem mapM_lines_eq_error_iff {γ : Type} {f : α → γ → Except ε β} {xs : List α} {ys : List γ}
    {e : ε} : xs.mapM (fun x => ys.mapM (f x)) = .error e ↔
      (xs ×ˢ ys).mapM (fun cell => f cell.1 cell.2) = .error e := by
  induction xs with
  | nil => simp
  | cons x xs ih =>
    have hline : (ys.map fun y => (x, y)).mapM (fun cell => f cell.1 cell.2) = ys.mapM (f x) := by
      rw [List.mapM_map]
      rfl
    rw [List.mapM_cons, List.product_cons, List.mapM_append, hline, bind_eq_error_iff,
      bind_eq_error_iff]
    refine or_congr_right (exists_congr fun zs => and_congr_right fun _ => ?_)
    rw [bind_eq_error_iff, bind_eq_error_iff, ih]
    simp

/-! ## What a computation fails with -/

/-- Every error that the computation fails with has the property. -/
def FailsOnly (P : ε → Prop) (x : Except ε α) : Prop := ∀ e, x = .error e → P e

variable {P : ε → Prop}

theorem FailsOnly.ok (a : α) : FailsOnly P (.ok a : Except ε α) := fun _ he => nomatch he

theorem FailsOnly.of_eq_ok {x : Except ε α} {a : α} (h : x = .ok a) : FailsOnly P x := h ▸ .ok a

theorem FailsOnly.error {e : ε} (h : P e) : FailsOnly P (.error e : Except ε α) := by
  rintro _ ⟨⟩
  exact h

/-- A sequence fails with what its first step fails with, or the second one on a result of the
first. -/
theorem FailsOnly.bind {x : Except ε α} {f : α → Except ε β} (hx : FailsOnly P x)
    (hf : ∀ a, x = .ok a → FailsOnly P (f a)) : FailsOnly P (x >>= f) := by
  cases x with
  | error e => exact .error (hx e rfl)
  | ok a => exact hf a rfl

/-- A map fails with the errors of its elements only. -/
theorem FailsOnly.mapM {f : α → Except ε β} {xs : List α} (h : ∀ x ∈ xs, FailsOnly P (f x)) :
    FailsOnly P (xs.mapM f) := by
  induction xs with
  | nil => exact .ok []
  | cons x xs ih =>
    rw [List.forall_mem_cons] at h
    rw [List.mapM_cons]
    exact .bind h.1 fun y _ => .bind (ih h.2) fun ys _ => .ok (y :: ys)

theorem FailsOnly.mapError {ε' : Type} {Q : ε' → Prop} {g : ε → ε'} {x : Except ε α}
    (h : FailsOnly (fun e => Q (g e)) x) : FailsOnly Q (x.mapError g) := by
  cases x with
  | error e => exact .error (h e rfl)
  | ok a => exact .ok a

end ContentQuery
