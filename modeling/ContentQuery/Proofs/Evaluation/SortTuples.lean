import ContentQuery.Proofs.Evaluation.Placement
import ContentQuery.Proofs.Evaluation.StableSort
import ContentQuery.Proofs.Outcome
import ContentQuery.Proofs.Value.NaturalOrder

/-! # Sorted tuples

A tuple's key has an entry for every criterion, and keys are compared entry by entry, each in the
direction of its criterion. An entry is missing if its operand has no value or reads a selector
without a node; any other error stops the sort. As long as the order of values is transitive on the
entries, comparing keys preorders the tuples, and the sort is the stable sort by it.
-/

namespace ContentQuery

deriving instance DecidableEq for NodeTuple

/-! ## Entries -/

/-- Entries swap their outcome with their places, missing ones included. -/
theorem compareEntries_ascending_swap (a b : Option Value) :
    compareEntries .ascending b a = (compareEntries .ascending a b).swap := by
  cases a with
  | none => cases b <;> rfl
  | some v =>
    cases b with
    | none => rfl
    | some w => exact v.naturalOrder_swap w

theorem compareEntries_descending (a b : Option Value) :
    compareEntries .descending a b = compareEntries .ascending b a :=
  (compareEntries_ascending_swap a b).symm

theorem compareEntries_swap (direction : Direction) (a b : Option Value) :
    compareEntries direction b a = (compareEntries direction a b).swap := by
  cases direction with
  | ascending => exact compareEntries_ascending_swap a b
  | descending =>
    rw [compareEntries_descending, compareEntries_descending, compareEntries_ascending_swap b a]

/-- Missing entries come first, so transitivity is a matter of the values. -/
theorem compareEntries_ascending_trans {a b c : Option Value}
    (h : ∀ v ∈ a, ∀ w ∈ b, ∀ x ∈ c,
      v.naturalOrder w ≠ .gt → w.naturalOrder x ≠ .gt → v.naturalOrder x ≠ .gt)
    (hab : compareEntries .ascending a b ≠ .gt) (hbc : compareEntries .ascending b c ≠ .gt) :
    compareEntries .ascending a c ≠ .gt := by
  cases a with
  | none => cases c <;> simp [compareEntries]
  | some v =>
    cases b with
    | none => exact absurd rfl hab
    | some w =>
      cases c with
      | none => exact absurd rfl hbc
      | some x => exact h v rfl w rfl x rfl hab hbc

namespace Context

variable (ctx : Context)

/-- The first value that the operand of a criterion has for a tuple, if it has any. -/
def entry (criterion : SortCriterion) (tuple : NodeTuple) : Option Value :=
  match ctx.values tuple criterion.operand with
  | .ok values => values.head?
  | .error _ => none

/-- The operand of a criterion fails for a tuple, and not for want of a node. -/
def StopsSort (tuple : NodeTuple) (criterion : SortCriterion) (e : EvalError) : Prop :=
  ctx.values tuple criterion.operand = .error e ∧ ∀ s, e ≠ .selectorNotBound s

/-- The keys of two tuples compared. -/
def compareTuples (orderings : List SortCriterion) (a b : NodeTuple) : Ordering :=
  compareKeys (orderings.map SortCriterion.direction) (orderings.map fun c => ctx.entry c a)
    (orderings.map fun c => ctx.entry c b)

/-- The order of values is transitive on the entries that some tuples have for a criterion. -/
def OrdersEntries (tuples : List NodeTuple) (criterion : SortCriterion) : Prop :=
  ∀ t ∈ tuples, ∀ u ∈ tuples, ∀ w ∈ tuples, ∀ a ∈ ctx.entry criterion t,
    ∀ b ∈ ctx.entry criterion u, ∀ c ∈ ctx.entry criterion w,
      a.naturalOrder b ≠ .gt → b.naturalOrder c ≠ .gt → a.naturalOrder c ≠ .gt

instance (tuples : List NodeTuple) (criterion : SortCriterion) :
    Decidable (ctx.OrdersEntries tuples criterion) :=
  inferInstanceAs (Decidable (∀ t ∈ tuples, ∀ u ∈ tuples, ∀ w ∈ tuples, ∀ a ∈ ctx.entry criterion t,
    ∀ b ∈ ctx.entry criterion u, ∀ c ∈ ctx.entry criterion w,
      a.naturalOrder b ≠ .gt → b.naturalOrder c ≠ .gt → a.naturalOrder c ≠ .gt))

variable {ctx} {criterion : SortCriterion} {orderings : List SortCriterion} {tuple : NodeTuple}
  {tuples : List NodeTuple}

/-- Computing an entry fails exactly with the errors that stop a sort. -/
theorem keyEntry_eq_error_iff {e : EvalError} :
    ctx.keyEntry tuple criterion = .error e ↔ ctx.StopsSort tuple criterion e := by
  unfold keyEntry StopsSort
  split
  · next values hvalues => simp [hvalues]
  · next s hvalues =>
    simp only [hvalues, reduceCtorEq, Except.error.injEq, false_iff, not_and]
    rintro rfl hbound
    exact hbound s rfl
  · next e' hother hvalues =>
    simp only [hvalues, Except.error.injEq]
    constructor
    · rintro rfl
      exact ⟨rfl, fun s hs => hother s hs⟩
    · exact And.left

/-- If nothing stops it, the computed entry is the entry of the tuple. -/
theorem keyEntry_eq_ok_iff {v : Option Value} : ctx.keyEntry tuple criterion = .ok v ↔
    (∀ e, ¬ ctx.StopsSort tuple criterion e) ∧ v = ctx.entry criterion tuple := by
  simp only [← keyEntry_eq_error_iff]
  unfold keyEntry entry
  split
  · next values hvalues => simp [hvalues, eq_comm]
  · next s hvalues => simp [hvalues, eq_comm]
  · next e hother hvalues => simp

/-- A key is made of the entries, if none stops the sort. -/
theorem sortKey_eq_ok_iff {key : List (Option Value)} : ctx.sortKey orderings tuple = .ok key ↔
    (∀ c ∈ orderings, ∀ e, ¬ ctx.StopsSort tuple c e) ∧
      key = orderings.map fun c => ctx.entry c tuple := by
  rw [sortKey, mapM_eq_ok_iff]
  simp only [keyEntry_eq_ok_iff]
  rw [List.forall₂_and_left, ← List.forall₂_map_left_iff (f := fun c => ctx.entry c tuple)
    (R := fun x y => y = x)]
  refine and_congr_right fun _ => ?_
  rw [show (fun x y : Option Value => y = x) = fun x y => x = y from
    funext₂ fun _ _ => propext eq_comm, List.forall₂_eq_eq_eq, eq_comm]

/-! ## The comparison of keys -/

@[simp] theorem compareTuples_nil (a b : NodeTuple) : ctx.compareTuples [] a b = .eq := rfl

/-- The first criterion decides unless it finds the tuples equal. -/
theorem compareTuples_cons (a b : NodeTuple) :
    ctx.compareTuples (criterion :: orderings) a b =
      (compareEntries criterion.direction (ctx.entry criterion a) (ctx.entry criterion b)).then
        (ctx.compareTuples orderings a b) := rfl

/-- Further criteria decide where the first ones do not. -/
theorem compareTuples_append (first second : List SortCriterion) (a b : NodeTuple) :
    ctx.compareTuples (first ++ second) a b =
      (ctx.compareTuples first a b).then (ctx.compareTuples second a b) := by
  induction first with
  | nil => rfl
  | cons c first ih => rw [List.cons_append, compareTuples_cons, compareTuples_cons, ih,
      Ordering.then_assoc]

/-- One criterion preorders tuples if the order of values is transitive on their entries. -/
theorem preordersOn_compareEntries (h : ctx.OrdersEntries tuples criterion) :
    PreordersOn (fun a b => compareEntries criterion.direction (ctx.entry criterion a)
      (ctx.entry criterion b)) {t | t ∈ tuples} where
  swap a b := compareEntries_swap _ _ _
  trans t ht u hu w hw htu huw := by
    cases hdirection : criterion.direction with
    | ascending =>
      rw [hdirection] at htu huw
      exact compareEntries_ascending_trans (h t ht u hu w hw) htu huw
    | descending =>
      rw [hdirection, compareEntries_descending] at htu huw
      rw [compareEntries_descending]
      exact compareEntries_ascending_trans (h w hw u hu t ht) huw htu

/-- Keys preorder tuples if every criterion does. -/
theorem preordersOn_compareTuples (h : ∀ c ∈ orderings, ctx.OrdersEntries tuples c) :
    PreordersOn (ctx.compareTuples orderings) {t | t ∈ tuples} := by
  induction orderings with
  | nil => exact ⟨fun _ _ => rfl, fun _ _ _ _ _ _ _ _ => by simp⟩
  | cons c orderings ih =>
    rw [List.forall_mem_cons] at h
    exact (preordersOn_compareEntries h.1).thenBy (ih h.2)

/-! ## The sort -/

/-- A tuple gets its key if none of its entries stops the sort. -/
theorem keyed_eq_ok_iff {keyed : List (Option Value) × NodeTuple} :
    (do return (← ctx.sortKey orderings tuple, tuple) : Eval _) = .ok keyed ↔
      (∀ c ∈ orderings, ∀ e, ¬ ctx.StopsSort tuple c e) ∧
        (orderings.map fun c => ctx.entry c tuple, tuple) = keyed := by
  simp only [bind_eq_ok_iff, pure_eq_ok_iff, sortKey_eq_ok_iff]
  constructor
  · rintro ⟨key, ⟨hstops, rfl⟩, rfl⟩
    exact ⟨hstops, rfl⟩
  · rintro ⟨hstops, rfl⟩
    exact ⟨_, ⟨hstops, rfl⟩, rfl⟩

/-- A sort that no operand stops is the stable sort by the keys. -/
theorem sortTuples_eq_ok_iff {sorted : List NodeTuple} :
    ctx.sortTuples orderings tuples = .ok sorted ↔
      (∀ t ∈ tuples, ∀ c ∈ orderings, ∀ e, ¬ ctx.StopsSort t c e) ∧
        sorted = sortBy (ctx.compareTuples orderings) tuples := by
  by_cases hempty : orderings = []
  · subst hempty
    -- without criteria all tuples are equal, so that sorting leaves them alone
    have hsort : sortBy (ctx.compareTuples []) tuples = tuples := by
      have hfilter : (sortBy (ctx.compareTuples []) tuples).filter (fun _ => true) =
          tuples.filter fun _ => true := filter_stableSort (by simp)
      rwa [List.filter_true, List.filter_true] at hfilter
    rw [hsort, sortTuples, if_pos rfl, pure_eq_ok_iff]
    simp [eq_comm]
  -- keys that are computed in front of the sort are those that the comparison reads
  · have hmap : ∀ keyed : List (List (Option Value) × NodeTuple),
        List.Forall₂ (fun t k => (orderings.map fun c => ctx.entry c t, t) = k) tuples keyed ↔
          keyed = tuples.map fun t => (orderings.map fun c => ctx.entry c t, t) := by
      intro keyed
      rw [← List.forall₂_map_left_iff (R := fun x y => x = y), List.forall₂_eq_eq_eq, eq_comm]
    rw [sortTuples, if_neg hempty, bind_eq_ok_iff]
    simp only [mapM_eq_ok_iff, keyed_eq_ok_iff, pure_eq_ok_iff, List.forall₂_and_left, hmap]
    constructor
    · rintro ⟨_, ⟨hstops, rfl⟩, rfl⟩
      rw [stableSort_map, List.map_map]
      exact ⟨hstops, List.map_id _⟩
    · rintro ⟨hstops, rfl⟩
      refine ⟨_, ⟨hstops, rfl⟩, ?_⟩
      rw [stableSort_map, List.map_map]
      exact List.map_id _

/-- The sort fails with the first error among those that stop it, tuple by tuple. -/
theorem sortTuples_eq_error_iff {e : EvalError} :
    ctx.sortTuples orderings tuples = .error e ↔
      ∃ before t c after, tuples ×ˢ orderings = before ++ (t, c) :: after ∧ ctx.StopsSort t c e ∧
        ∀ cell ∈ before, ∀ e', ¬ ctx.StopsSort cell.1 cell.2 e' := by
  -- the sort itself never fails, so the keys do, tuple by tuple and in the order of the criteria
  have hcells : ctx.sortTuples orderings tuples = .error e ↔
      tuples.mapM (fun t => orderings.mapM (ctx.keyEntry t)) = .error e := by
    by_cases hempty : orderings = []
    · subst hempty
      simp [sortTuples]
    · rw [sortTuples, if_neg hempty, bind_eq_error_iff, mapM_eq_error_iff, mapM_eq_error_iff]
      simp only [bind_eq_error_iff, bind_eq_ok_iff, pure_ne_error, pure_eq_ok_iff, and_false,
        exists_false, or_false, sortKey]
      simp
  rw [hcells, mapM_lines_eq_error_iff, mapM_eq_error_iff]
  simp only [keyEntry_eq_error_iff, keyEntry_eq_ok_iff, Prod.exists]
  simp

/-- **Sorting is stable and lexicographic.** It fails exactly if some operand fails for a tuple, and
not for want of a node, with the first such error, tuple by tuple. Otherwise it gives the tuples in
another order. If the order of values is transitive on the entries, then no key is greater than one
behind it and tuples with equal keys keep their order; and to sort by some criteria followed by
others is to sort by the others and then by the first ones. -/
theorem sortTuples_stable_lexicographic (ctx : Context) (tuples : List NodeTuple) :
    (∀ orderings e, ctx.sortTuples orderings tuples = .error e ↔
      ∃ before t c after, tuples ×ˢ orderings = before ++ (t, c) :: after ∧ ctx.StopsSort t c e ∧
        ∀ cell ∈ before, ∀ e', ¬ ctx.StopsSort cell.1 cell.2 e') ∧
      (∀ orderings, (∀ t ∈ tuples, ∀ c ∈ orderings, ∀ e, ¬ ctx.StopsSort t c e) →
        ∃ sorted, ctx.sortTuples orderings tuples = .ok sorted ∧ sorted.Perm tuples ∧
          ((∀ c ∈ orderings, ctx.OrdersEntries tuples c) →
            sorted.Pairwise (fun a b => ctx.compareTuples orderings a b ≠ .gt) ∧
              ∀ t ∈ tuples, sorted.filter (fun u => ctx.compareTuples orderings t u == .eq) =
                tuples.filter fun u => ctx.compareTuples orderings t u == .eq)) ∧
      ∀ first second, (∀ c ∈ first ++ second, ctx.OrdersEntries tuples c) →
        ∀ sorted, ctx.sortTuples (first ++ second) tuples = .ok sorted ↔
          ctx.sortTuples second tuples >>= ctx.sortTuples first = .ok sorted := by
  refine ⟨fun orderings e => sortTuples_eq_error_iff, fun orderings hstops => ?_,
    fun first second horders sorted => ?_⟩
  · refine ⟨_, sortTuples_eq_ok_iff.mpr ⟨hstops, rfl⟩, perm_stableSort tuples, fun horders => ?_⟩
    have hpreorders := preordersOn_compareTuples horders
    exact ⟨hpreorders.pairwise_sortBy fun _ ht => ht,
      fun t ht => hpreorders.filter_sortBy (fun _ hu => hu) ht⟩
  -- sorting by the second criteria and then by the first ones sorts by both
  · rw [List.forall_mem_append] at horders
    have hsort : sortBy (ctx.compareTuples (first ++ second)) tuples =
        sortBy (ctx.compareTuples first) (sortBy (ctx.compareTuples second) tuples) := by
      rw [← (preordersOn_compareTuples horders.1).sortBy_then (preordersOn_compareTuples horders.2)
        fun _ ht => ht]
      exact congrArg (sortBy · tuples) (funext₂ fun a b => compareTuples_append first second a b)
    rw [bind_eq_ok_iff, sortTuples_eq_ok_iff, hsort]
    simp only [sortTuples_eq_ok_iff, List.forall_mem_append]
    constructor
    · rintro ⟨hstops, rfl⟩
      refine ⟨_, ⟨fun t ht => (hstops t ht).2, rfl⟩, fun t ht => ?_, rfl⟩
      exact (hstops t ((perm_stableSort tuples).mem_iff.mp ht)).1
    -- the first ones meet the same tuples in another order, so they stop at no other
    · rintro ⟨_, ⟨hsecond, rfl⟩, hfirst, rfl⟩
      refine ⟨fun t ht => ⟨hfirst t ((perm_stableSort tuples).mem_iff.mpr ht), hsecond t ht⟩, rfl⟩

/-- Five tuples by the names of two nodes, the first one descending: one lacks the first node, and
two have equal keys. -/
theorem sortTuples_stable_lexicographic_directed :
    let ctx := ofTree branchedTree
    let first : SortCriterion := ⟨.localName ⟨"s"⟩, .descending⟩
    let second : SortCriterion := ⟨.localName ⟨"t"⟩, .ascending⟩
    let ac : NodeTuple := ⟨[(⟨"s"⟩, some 1), (⟨"t"⟩, some 3)]⟩
    let bc : NodeTuple := ⟨[(⟨"s"⟩, some 2), (⟨"t"⟩, some 3)]⟩
    let noneA : NodeTuple := ⟨[(⟨"s"⟩, none), (⟨"t"⟩, some 1)]⟩
    let ab : NodeTuple := ⟨[(⟨"s"⟩, some 1), (⟨"t"⟩, some 2)]⟩
    let bc' : NodeTuple := ⟨[(⟨"t"⟩, some 3), (⟨"s"⟩, some 2)]⟩
    let tuples := [ac, bc, noneA, ab, bc']
    let sorted := [bc, bc', ab, ac, noneA]
    (∀ t ∈ tuples, ∀ c ∈ [first, second], ∀ e, ¬ ctx.StopsSort t c e) ∧
      (∀ c ∈ [first, second], ctx.OrdersEntries tuples c) ∧
      ctx.sortTuples [first, second] tuples = .ok sorted ∧
      sorted.Pairwise (fun a b => ctx.compareTuples [first, second] a b ≠ .gt) ∧
      (sorted.filter fun u => ctx.compareTuples [first, second] bc u == .eq) = [bc, bc'] ∧
      ctx.sortTuples [second] tuples >>= ctx.sortTuples [first] = .ok sorted := by
  intro ctx first second ac bc noneA ab bc' tuples sorted
  have hsorted : ctx.sortTuples [first, second] tuples = .ok sorted := by decide +kernel
  have hstops := (sortTuples_eq_ok_iff.mp hsorted).1
  have horders : ∀ c ∈ [first, second], ctx.OrdersEntries tuples c := by decide +kernel
  have h := sortTuples_stable_lexicographic ctx tuples
  obtain ⟨result, hresult, -, hstable⟩ := h.2.1 [first, second] hstops
  obtain rfl : result = sorted := Except.ok.inj (hresult.symm.trans hsorted)
  obtain ⟨hpairwise, hties⟩ := hstable horders
  exact ⟨hstops, horders, hsorted, hpairwise, (hties bc (by simp [tuples])).trans (by decide +kernel),
    (h.2.2 [first] [second] horders sorted).mp hsorted⟩

end Context

end ContentQuery
