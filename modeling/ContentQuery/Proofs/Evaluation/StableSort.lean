import ContentQuery.Evaluation.Sort
import Mathlib

/-! # Stable sorting

`stableSort` takes one element after the other and inserts it from behind. Elements of which none
comes before the other keep their order, whatever the comparison is. On elements that a comparison
preorders the result is sorted too, and both together determine it. So a comparison with a second
one for ties sorts like the second one followed by the first.
-/

namespace ContentQuery

variable {α β : Type}

/-- Sort by a comparison. -/
def sortBy (cmp : α → α → Ordering) (xs : List α) : List α :=
  stableSort (fun a b => cmp a b == .lt) xs

/-! ## Any comparison -/

variable {isBefore : α → α → Bool}

/-- Inserting an element adds it and moves the others only. -/
theorem perm_insertFromLast (x : α) (xs : List α) :
    (insertFromLast isBefore x xs).Perm (x :: xs) := by
  induction xs with
  | nil => exact .refl _
  | cons y ys ih =>
    rw [insertFromLast]
    split
    · exact (ih.cons y).trans (.swap x y ys)
    · exact .refl _

/-- The last element is inserted among the sorted ones in front of it. -/
theorem stableSort_concat (xs : List α) (x : α) : stableSort isBefore (xs ++ [x]) =
    (insertFromLast isBefore x (stableSort isBefore xs).reverse).reverse := by
  simp [stableSort]

/-- Sorting loses and adds nothing, whatever the order does. -/
theorem perm_stableSort (xs : List α) : (stableSort isBefore xs).Perm xs := by
  induction xs using List.reverseRecOn with
  | nil => exact .refl _
  | append_singleton xs x ih =>
    rw [stableSort_concat]
    have hinsert : (insertFromLast isBefore x (stableSort isBefore xs).reverse).Perm
        (x :: (stableSort isBefore xs).reverse) := perm_insertFromLast x _
    have hsorted : (x :: (stableSort isBefore xs).reverse).Perm (x :: xs) :=
      ((List.reverse_perm _).trans ih).cons x
    exact (List.reverse_perm _).trans
      (hinsert.trans (hsorted.trans (List.perm_append_singleton x xs).symm))

/-- Elements can be inserted by a key and replaced by it afterwards, or the other way round. -/
theorem insertFromLast_map (f : β → α) (x : β) (xs : List β) :
    insertFromLast isBefore (f x) (xs.map f) =
      (insertFromLast (fun a b => isBefore (f a) (f b)) x xs).map f := by
  induction xs with
  | nil => rfl
  | cons y ys ih =>
    rw [List.map_cons, insertFromLast, insertFromLast, ih]
    split <;> rfl

/-- Elements are sorted like what they are mapped to. -/
theorem stableSort_map (f : β → α) (xs : List β) : stableSort isBefore (xs.map f) =
    (stableSort (fun a b => isBefore (f a) (f b)) xs).map f := by
  induction xs using List.reverseRecOn with
  | nil => rfl
  | append_singleton xs x ih =>
    rw [List.map_append, List.map_singleton, stableSort_concat, stableSort_concat, ih,
      ← List.map_reverse, insertFromLast_map, List.map_reverse]

/-- An inserted element stands in front of those that it does not come before. -/
theorem filter_insertFromLast {p : α → Bool} {x : α} {xs : List α}
    (h : p x = true → ∀ y ∈ xs, p y = true → isBefore x y = false) :
    (insertFromLast isBefore x xs).filter p = (x :: xs).filter p := by
  induction xs with
  | nil => rfl
  | cons y ys ih =>
    rw [insertFromLast]
    split
    · next hbefore =>
      -- passing an element that is not of the kind changes no order among those that are
      have hys := ih fun hx z hz => h hx z (List.mem_cons_of_mem y hz)
      rw [List.filter_cons, hys]
      by_cases hx : p x = true
      · have hy : p y = false := by
          by_contra hy
          rw [h hx y List.mem_cons_self (by simpa using hy)] at hbefore
          cases hbefore
        simp [List.filter_cons, hy]
      · simp [List.filter_cons, hx]
    · rfl

/-- Elements of which none comes before the other keep their order. -/
theorem filter_stableSort {p : α → Bool} {xs : List α}
    (h : ∀ x ∈ xs, ∀ y ∈ xs, p x = true → p y = true → isBefore x y = false) :
    (stableSort isBefore xs).filter p = xs.filter p := by
  -- the last element is inserted into what is sorted already
  induction xs using List.reverseRecOn with
  | nil => rfl
  | append_singleton xs x ih =>
    have hxs := ih fun y hy z hz => h y (List.mem_append_left [x] hy) z (List.mem_append_left [x] hz)
    have hlast : p x = true → ∀ y ∈ (stableSort isBefore xs).reverse, p y = true →
        isBefore x y = false := by
      intro hx y hy
      rw [List.mem_reverse, (perm_stableSort xs).mem_iff] at hy
      exact h x (by simp) y (List.mem_append_left [x] hy) hx
    rw [stableSort_concat, List.filter_reverse, filter_insertFromLast hlast, List.filter_append,
      ← hxs, List.filter_cons, List.filter_reverse]
    split
    · next hx => simp [hx]
    · next hx => simp [hx]

/-! ## Preorders -/

/-- The comparison turns around with its arguments, and is transitive on some elements. -/
structure PreordersOn (cmp : α → α → Ordering) (s : Set α) : Prop where
  swap : ∀ a b, cmp b a = (cmp a b).swap
  trans : ∀ a ∈ s, ∀ b ∈ s, ∀ c ∈ s, cmp a b ≠ .gt → cmp b c ≠ .gt → cmp a c ≠ .gt

namespace PreordersOn

variable {cmp cmp' : α → α → Ordering} {s : Set α} (h : PreordersOn cmp s)
include h

theorem refl (a : α) : cmp a a = .eq := by
  have hswap := h.swap a a
  cases hcmp : cmp a a with
  | eq => rfl
  | lt => simp [hcmp] at hswap
  | gt => simp [hcmp] at hswap

theorem eq_comm {a b : α} : cmp a b = .eq ↔ cmp b a = .eq := by
  rw [h.swap a b, Ordering.swap_eq_eq]

theorem ne_gt_comm {a b : α} : cmp a b ≠ .gt ↔ cmp b a ≠ .lt := by
  rw [h.swap a b, ne_eq, ne_eq, Ordering.swap_eq_lt]

/-- Elements that are not greater than each other are equal. -/
theorem eq_of_ne_gt {a b : α} (hab : cmp a b ≠ .gt) (hba : cmp b a ≠ .gt) : cmp a b = .eq := by
  rw [h.ne_gt_comm] at hba
  cases hcmp : cmp a b with
  | lt => exact absurd hcmp hba
  | eq => rfl
  | gt => exact absurd hcmp hab

/-- Two elements that equal a third one are equal. -/
theorem eq_of_eq {a b c : α} (ha : a ∈ s) (hb : b ∈ s) (hc : c ∈ s) (hca : cmp c a = .eq)
    (hcb : cmp c b = .eq) : cmp a b = .eq := by
  have hac := h.eq_comm.mp hca
  have hbc := h.eq_comm.mp hcb
  exact h.eq_of_ne_gt (h.trans a ha c hc b hb (by simp [hac]) (by simp [hcb]))
    (h.trans b hb c hc a ha (by simp [hbc]) (by simp [hca]))

/-! ## The sorted list -/

/-- An element inserted into a sorted list keeps it sorted: it goes behind the last element that it is
not in front of. -/
theorem pairwise_insertFromLast {x : α} (hx : x ∈ s) {xs : List α} (hxs : ∀ y ∈ xs, y ∈ s)
    (hsorted : xs.Pairwise fun a b => cmp b a ≠ .gt) :
    (insertFromLast (fun a b => cmp a b == .lt) x xs).Pairwise fun a b => cmp b a ≠ .gt := by
  induction xs with
  | nil => exact List.pairwise_singleton _ x
  | cons y ys ih =>
    rw [List.forall_mem_cons] at hxs
    obtain ⟨hy, hys⟩ := hxs
    rw [List.pairwise_cons] at hsorted
    obtain ⟨hlast, hsorted⟩ := hsorted
    rw [insertFromLast]
    split
    · next hbefore =>
      -- past an element that it is less than
      rw [beq_iff_eq] at hbefore
      refine List.pairwise_cons.mpr ⟨fun z hz => ?_, ih hys hsorted⟩
      rcases List.mem_cons.mp ((perm_insertFromLast x ys).mem_iff.mp hz) with rfl | hz
      · simp [hbefore]
      · exact hlast z hz
    · next hbefore =>
      -- it stays, and what is left is no greater
      have hyx : cmp y x ≠ .gt := h.ne_gt_comm.mpr (by simpa using hbefore)
      refine List.pairwise_cons.mpr ⟨fun z hz => ?_, List.pairwise_cons.mpr ⟨hlast, hsorted⟩⟩
      rcases List.mem_cons.mp hz with rfl | hz
      · exact hyx
      · exact h.trans z (hys z hz) y hy x hx (hlast z hz) hyx

/-- No element of the sorted list is greater than one behind it. -/
theorem pairwise_sortBy {xs : List α} (hxs : ∀ x ∈ xs, x ∈ s) :
    (sortBy cmp xs).Pairwise fun a b => cmp a b ≠ .gt := by
  unfold sortBy
  induction xs using List.reverseRecOn with
  | nil => exact .nil
  | append_singleton xs x ih =>
    have hfront : ∀ y ∈ xs, y ∈ s := fun y hy => hxs y (List.mem_append_left [x] hy)
    rw [stableSort_concat, List.pairwise_reverse]
    refine h.pairwise_insertFromLast (hxs x (by simp)) (fun y hy => ?_)
      (List.pairwise_reverse.mpr (ih hfront))
    rw [List.mem_reverse, (perm_stableSort xs).mem_iff] at hy
    exact hfront y hy

/-- Elements that equal a given one keep their order. -/
theorem filter_sortBy {xs : List α} (hxs : ∀ x ∈ xs, x ∈ s) {k : α} (hk : k ∈ s) :
    (sortBy cmp xs).filter (fun x => cmp k x == .eq) = xs.filter fun x => cmp k x == .eq := by
  refine filter_stableSort fun x hx y hy hkx hky => ?_
  rw [beq_iff_eq] at hkx hky
  simp [h.eq_of_eq (hxs x hx) (hxs y hy) hk hkx hky]

/-- A sorted list is known from the order in which it holds the elements that equal a given one. -/
theorem eq_of_filter_eq {xs ys : List α} (hxs : ∀ x ∈ xs, x ∈ s) (hys : ∀ y ∈ ys, y ∈ s)
    (hsx : xs.Pairwise fun a b => cmp a b ≠ .gt) (hsy : ys.Pairwise fun a b => cmp a b ≠ .gt)
    (hfilter : ∀ k ∈ s, xs.filter (fun x => cmp k x == .eq) = ys.filter fun x => cmp k x == .eq) :
    xs = ys := by
  -- the element itself is among those that equal it
  have hmem : ∀ {zs : List α} {z : α}, z ∈ zs ↔ z ∈ zs.filter fun x => cmp z x == .eq := by
    intro zs z
    simp [h.refl z]
  induction xs generalizing ys with
  | nil =>
    cases ys with
    | nil => rfl
    | cons y ys =>
      have hy := hmem.mp (List.mem_cons_self (a := y) (l := ys))
      rw [← hfilter y (hys y List.mem_cons_self)] at hy
      cases hy
  | cons x xs ih =>
    cases ys with
    | nil =>
      have hx := hmem.mp (List.mem_cons_self (a := x) (l := xs))
      rw [hfilter x (hxs x List.mem_cons_self)] at hx
      cases hx
    | cons y ys =>
      have hx := hxs x List.mem_cons_self
      have hy := hys y List.mem_cons_self
      have hxmem : x ∈ y :: ys := by
        rw [hmem, ← hfilter x hx, ← hmem]
        exact List.mem_cons_self
      have hymem : y ∈ x :: xs := by
        rw [hmem, hfilter y hy, ← hmem]
        exact List.mem_cons_self
      rw [List.pairwise_cons] at hsx hsy
      have hyx : cmp y x ≠ .gt := by
        rcases List.mem_cons.mp hxmem with rfl | hxmem
        · simp [h.refl]
        · exact hsy.1 x hxmem
      have hxy : cmp x y ≠ .gt := by
        rcases List.mem_cons.mp hymem with rfl | hymem
        · simp [h.refl]
        · exact hsx.1 y hymem
      -- both stand first among the elements that equal them
      have hhead := hfilter x hx
      rw [List.filter_cons_of_pos (by simp [h.refl]),
        List.filter_cons_of_pos (by simp [h.eq_of_ne_gt hxy hyx])] at hhead
      obtain ⟨rfl, -⟩ := List.cons.inj hhead
      rw [List.forall_mem_cons] at hxs hys
      rw [ih hxs.2 hys.2 hsx.2 hsy.2 fun k hk => ?_]
      have hk := hfilter k hk
      rw [List.filter_cons, List.filter_cons] at hk
      split at hk
      · exact (List.cons.inj hk).2
      · exact hk

/-! ## Two comparisons -/

variable (h' : PreordersOn cmp' s)
include h'

/-- A comparison with a second one for ties is a preorder. -/
theorem thenBy : PreordersOn (fun a b => (cmp a b).then (cmp' a b)) s where
  swap a b := by rw [Ordering.swap_then, h.swap, h'.swap]
  trans a ha b hb c hc hab hbc := by
    rw [ne_eq, Ordering.then_eq_gt, not_or, not_and] at hab hbc ⊢
    refine ⟨h.trans a ha b hb c hc hab.1 hbc.1, fun hac => ?_⟩
    -- if the outer two are equal, so are all three
    have hba : cmp b a ≠ .gt := h.trans b hb c hc a ha hbc.1 (by simp [h.eq_comm.mp hac])
    have hab' : cmp a b = .eq := h.eq_of_ne_gt hab.1 hba
    have hbc' : cmp b c = .eq := h.eq_of_eq hb hc ha hab' hac
    exact h'.trans a ha b hb c hc (hab.2 hab') (hbc.2 hbc')

/-- **Sorting with a second comparison for ties is sorting by the second and then by the first.** -/
theorem sortBy_then {xs : List α} (hxs : ∀ x ∈ xs, x ∈ s) :
    sortBy (fun a b => (cmp a b).then (cmp' a b)) xs = sortBy cmp (sortBy cmp' xs) := by
  have hinner : ∀ x ∈ sortBy cmp' xs, x ∈ s := fun x hx => hxs x ((perm_stableSort xs).mem_iff.mp hx)
  have houter : ∀ x ∈ sortBy cmp (sortBy cmp' xs), x ∈ s := fun x hx =>
    hinner x ((perm_stableSort _).mem_iff.mp hx)
  refine (h.thenBy h').eq_of_filter_eq (fun x hx => hxs x ((perm_stableSort xs).mem_iff.mp hx))
    houter ((h.thenBy h').pairwise_sortBy hxs) ?_ fun k hk => ?_
  · -- two elements that the first comparison ties stand as the second one has sorted them
    refine List.pairwise_iff_forall_sublist.mpr fun {a b} hsub => ?_
    have ha := houter a (hsub.subset (by simp))
    have hab : cmp a b ≠ .gt := List.pairwise_iff_forall_sublist.mp (h.pairwise_sortBy hinner) hsub
    rw [ne_eq, Ordering.then_eq_gt, not_or, not_and]
    refine ⟨hab, fun heq => ?_⟩
    have htied := hsub.filter fun x => cmp a x == .eq
    rw [h.filter_sortBy hinner ha] at htied
    have hpair : [a, b].filter (fun x => cmp a x == .eq) = [a, b] := by simp [h.refl, heq]
    rw [hpair] at htied
    exact List.pairwise_iff_forall_sublist.mp (h'.pairwise_sortBy hxs)
      (htied.trans List.filter_sublist)
  · -- elements that both comparisons tie keep their order either way
    have hboth : ∀ zs : List α, zs.filter (fun x => (cmp k x).then (cmp' k x) == .eq) =
        (zs.filter fun x => cmp k x == .eq).filter fun x => cmp' k x == .eq := by
      intro zs
      rw [List.filter_filter]
      refine List.filter_congr fun x _ => ?_
      rw [Bool.eq_iff_iff, beq_iff_eq, Ordering.then_eq_eq, Bool.and_eq_true, beq_iff_eq, beq_iff_eq,
        and_comm]
    calc (sortBy (fun a b => (cmp a b).then (cmp' a b)) xs).filter _
        = xs.filter fun x => (cmp k x).then (cmp' k x) == .eq := (h.thenBy h').filter_sortBy hxs hk
      _ = (xs.filter fun x => cmp' k x == .eq).filter fun x => cmp k x == .eq := by
          rw [hboth, List.filter_comm]
      _ = ((sortBy cmp' xs).filter fun x => cmp k x == .eq).filter fun x => cmp' k x == .eq := by
          rw [← h'.filter_sortBy hxs hk, List.filter_comm]
      _ = (sortBy cmp (sortBy cmp' xs)).filter _ := by
          rw [← h.filter_sortBy hinner hk, ← hboth]

end PreordersOn

end ContentQuery
