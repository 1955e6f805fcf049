import ContentQuery.Proofs.Evaluation.Placement
import ContentQuery.Proofs.Filter.Schedule
import ContentQuery.Proofs.Outcome

/-! # What becomes of a batch

A pool puts its results back in the order of the items, whatever order they were finished in. So what
a batch gives depends on a schedule only through the flags that its tuples have seen: it is that of
taking the tuples in turn, and the first one without a verdict tells why there is none.
-/

namespace ContentQuery.Filter

/-! ## The order of the results -/

/-- Results are put in the order of their places. -/
theorem mergeSort_places {β : Type} {finished tagged : List (β × Nat)} (h : finished.Perm tagged)
    (hplaces : (tagged.map Prod.snd).Pairwise (· < ·)) :
    (finished.mergeSort fun a b => a.2 ≤ b.2) = tagged := by
  -- both lists are sorted by their places, which are all different
  have hsorted : (finished.mergeSort fun a b => a.2 ≤ b.2).Pairwise fun a b => a.2 ≤ b.2 := by
    have htrans : ∀ a b c : β × Nat, decide (a.2 ≤ b.2) = true → decide (b.2 ≤ c.2) = true →
        decide (a.2 ≤ c.2) = true := by
      intro a b c hab hbc
      rw [decide_eq_true_iff] at hab hbc ⊢
      exact Nat.le_trans hab hbc
    have htotal : ∀ a b : β × Nat, (decide (a.2 ≤ b.2) || decide (b.2 ≤ a.2)) = true := by
      intro a b
      rw [Bool.or_eq_true, decide_eq_true_iff, decide_eq_true_iff]
      exact Nat.le_total a.2 b.2
    exact (List.pairwise_mergeSort htrans htotal finished).imp of_decide_eq_true
  have hinjective : (tagged.map Prod.snd).Nodup := hplaces.imp Nat.ne_of_lt
  have hperm := (List.mergeSort_perm finished fun a b => a.2 ≤ b.2).trans h
  refine List.Perm.eq_of_pairwise (fun a b ha hb hab hba => ?_) hsorted
    ((List.pairwise_map.mp hplaces).imp Nat.le_of_lt) hperm
  exact List.inj_on_of_nodup_map hinjective (hperm.mem_iff.mp ha) hb (Nat.le_antisymm hab hba)

/-- A pool whose executor runs every item once gives the results in the order of the items. -/
theorem evaluateInOrder_eq_map {α β : Type} {execute : Executor (α × Nat) (β × Nat)}
    {items : List α} (f : α → β) (h : execute.RunsOnce items.zipIdx) :
    evaluateInOrder execute items f = items.map f := by
  have hplaces : ((items.zipIdx.map fun item => (f item.1, item.2)).map Prod.snd).Pairwise
      (· < ·) := by
    have hsnd : (Prod.snd ∘ fun item : α × Nat => (f item.1, item.2)) = Prod.snd := rfl
    rw [List.map_map, hsnd, List.zipIdx_map_snd]
    exact List.pairwise_lt_range'
  rw [evaluateInOrder, mergeSort_places (h _) hplaces, List.map_map]
  calc items.zipIdx.map (Prod.fst ∘ fun item => (f item.1, item.2))
      = (items.zipIdx.map Prod.fst).map f := by rw [List.map_map]; rfl
    _ = items.map f := by rw [List.zipIdx_map_fst]

/-- **Results come in the order of the items.** Whatever order an executor finishes the items of a batch
in, each of them once, the results are those of taking the items in turn, and as many as there are items.
Neither items nor results need to be different. -/
theorem evaluateInOrder_of_runsOnce {α β : Type} {execute : Executor (α × Nat) (β × Nat)}
    {items : List α} (h : execute.RunsOnce items.zipIdx) (f : α → β) :
    evaluateInOrder execute items f = items.map f ∧
      (evaluateInOrder execute items f).length = items.length := by
  have hmap : evaluateInOrder execute items f = items.map f := evaluateInOrder_eq_map f h
  refine ⟨hmap, ?_⟩
  rw [hmap, List.length_map]

/-- Three items, of which the first one and the last one are the same, finished from the last one on. -/
theorem evaluateInOrder_of_runsOnce_shuffled :
    let s : Schedule 3 := ⟨[.flag (.check 2), .flag (.check 0), .evaluate 2, .finish 2, .evaluate 0,
      .flag (.check 1), .finish 0, .evaluate 1, .finish 1], by decide⟩
    let execute : Executor (String × Nat) (Nat × Nat) := s.executor
    let items := ["long", "short", "long"]
    execute.RunsOnce items.zipIdx ∧
      execute items.zipIdx (fun item => (item.1.length, item.2)) = [(4, 2), (4, 0), (5, 1)] ∧
      evaluateInOrder execute items String.length = [4, 5, 4] ∧
      (evaluateInOrder execute items String.length).length = 3 := by
  intro s execute items
  have hruns : execute.RunsOnce items.zipIdx := s.runsOnce_executor rfl
  have horder := evaluateInOrder_of_runsOnce hruns String.length
  exact ⟨hruns, by decide +kernel, horder.1, horder.2⟩

namespace ConstraintFilter

variable {filter : ConstraintFilter} {tuples : List NodeTuple} {flag : Bool}

/-- The batch is decided as if the tuples were taken in turn, each with the flag that it sees. -/
theorem run_eq_mapM (s : Schedule tuples.length) :
    filter.run s.executor (s.cancelled flag) tuples = tuples.zipIdx.mapM fun item =>
      filter.attempt (s.cancelled flag item.2) item.1 := by
  have hsize : tuples.zipIdx.zipIdx.length = tuples.length := by simp
  rw [run, evaluateInOrder_eq_map _ (s.runsOnce_executor hsize), List.mapM_map]
  rfl

/-! ## One tuple -/

/-- Deciding a tuple ends with a verdict or with an error of the evaluation, never with a cancellation.
-/
theorem evaluate_cases (filter : ConstraintFilter) (tuple : NodeTuple) :
    (∃ verdict, filter.evaluate tuple = .ok verdict) ∨
      ∃ cause, filter.evaluate tuple = .error (.evaluation cause) := by
  unfold evaluate
  cases filter.context.verdict tuple filter.constraint with
  | ok verdict => exact .inl ⟨verdict, rfl⟩
  | error cause => exact .inr ⟨cause, rfl⟩

/-- A worker hands in a verdict if it has seen the flag clear and there is one. -/
theorem attempt_eq_ok_iff {cancelled : Bool} {tuple : NodeTuple} {decided : NodeTuple × Verdict} :
    filter.attempt cancelled tuple = .ok decided ↔
      cancelled = false ∧ decided.1 = tuple ∧ filter.evaluate tuple = .ok decided.2 := by
  obtain ⟨tuple', verdict⟩ := decided
  cases cancelled with
  | true => simp [attempt]
  | false =>
    cases h : filter.evaluate tuple <;> simp [attempt, h, Except.map, and_comm, eq_comm]

/-- A worker hands in an error if it has seen the flag set, or else that of the evaluation. -/
theorem attempt_eq_error_iff {cancelled : Bool} {tuple : NodeTuple} {e : FilterError} :
    filter.attempt cancelled tuple = .error e ↔
      (cancelled = true ∧ e = .cancelled) ∨
        (cancelled = false ∧ filter.evaluate tuple = .error e) := by
  cases cancelled with
  | true => simp [attempt, eq_comm]
  | false => cases h : filter.evaluate tuple <;> simp [attempt, h, Except.map]

/-! ## The batch -/

/-- Every tuple in front of a place saw the flag clear and was evaluated to a verdict. -/
def DecidedBefore (filter : ConstraintFilter) (tuples : List NodeTuple) (seen : Nat → Option Bool)
    (place : Nat) : Prop :=
  ∀ i < place, ∀ tuple, tuples[i]? = some tuple →
    seen i = some false ∧ ∃ verdict, filter.evaluate tuple = .ok verdict

/-- What can become of a batch, by the flags that its tuples have seen: the verdicts for all tuples,
or what kept the first tuple without a verdict from it. -/
inductive BatchOutcome (filter : ConstraintFilter) (tuples : List NodeTuple)
    (seen : Nat → Option Bool) : Except FilterError (List Verdict) → Prop
  | decided {verdicts : List Verdict} (hbefore : filter.DecidedBefore tuples seen tuples.length)
      (hverdicts : List.Forall₂ (fun tuple verdict => filter.evaluate tuple = .ok verdict) tuples
        verdicts) : BatchOutcome filter tuples seen (.ok verdicts)
  | failed {place : Nat} {tuple : NodeTuple} {cause : EvalError}
      (hbefore : filter.DecidedBefore tuples seen place) (htuple : tuples[place]? = some tuple)
      (hseen : seen place = some false)
      (hcause : filter.evaluate tuple = .error (.evaluation cause)) :
      BatchOutcome filter tuples seen (.error (.evaluation cause))
  | cancelled {place : Nat} (hbefore : filter.DecidedBefore tuples seen place)
      (hplace : place < tuples.length) (hseen : seen place = some true) :
      BatchOutcome filter tuples seen (.error .cancelled)

/-- What stands at a place, and in front of it, where the list of places is split. -/
theorem zipIdx_eq_append_cons {α : Type} {xs : List α} {before after : List (α × Nat)} {x : α}
    {place : Nat} (h : xs.zipIdx = before ++ (x, place) :: after) :
    xs[place]? = some x ∧ ∀ i < place, ∀ y, xs[i]? = some y → (y, i) ∈ before := by
  have hget : ∀ i : Nat, xs[i]?.map (fun y => (y, i)) = (before ++ (x, place) :: after)[i]? := by
    intro i
    rw [← h, List.getElem?_zipIdx, Nat.zero_add]
  have hsplit := hget before.length
  rw [List.getElem?_append_right (Nat.le_refl _), Nat.sub_self, List.getElem?_cons_zero,
    Option.map_eq_some_iff] at hsplit
  obtain ⟨y, hy, heq⟩ := hsplit
  obtain ⟨rfl, rfl⟩ := Prod.mk.inj heq
  refine ⟨hy, fun i hi z hz => ?_⟩
  have hbefore := hget i
  rw [hz, List.getElem?_append_left hi] at hbefore
  exact List.mem_of_getElem? hbefore.symm

/-- Tuples of which an attempt makes something see the flag clear and have a verdict. -/
theorem decidedBefore_of_attempt (s : Schedule tuples.length) {place : Nat}
    (h : ∀ i < place, ∀ tuple, tuples[i]? = some tuple →
      ∃ decided, filter.attempt (s.cancelled flag i) tuple = .ok decided) :
    filter.DecidedBefore tuples (s.seen flag) place := by
  intro i hi tuple htuple
  obtain ⟨decided, hdecided⟩ := h i hi tuple htuple
  obtain ⟨hclear, -, hverdict⟩ := attempt_eq_ok_iff.mp hdecided
  refine ⟨?_, decided.2, hverdict⟩
  rw [s.seen_eq_some (List.getElem?_eq_some_iff.mp htuple).1, hclear]

/-- The outcome of a batch is that of the first tuple without a verdict. -/
theorem batchOutcome_evaluateAll (s : Schedule tuples.length) :
    filter.BatchOutcome tuples (s.seen flag)
      (filter.evaluateAll s.executor (s.cancelled flag) tuples) := by
  rw [evaluateAll, run_eq_mapM]
  cases hrun : tuples.zipIdx.mapM fun item =>
      filter.attempt (s.cancelled flag item.2) item.1 with
  | ok decided =>
    rw [mapM_eq_ok_iff] at hrun
    have hattempts := forall_mem_of_forall₂ hrun.flip fun decided _ _ h => Exists.intro decided h
    refine .decided (decidedBefore_of_attempt s fun i _ tuple htuple =>
      hattempts (tuple, i) (List.mem_zipIdx_iff_getElem?.mpr htuple)) ?_
    rw [List.forall₂_map_right_iff, ← List.zipIdx_map_fst 0 tuples, List.forall₂_map_left_iff]
    exact hrun.imp fun _ _ h => (attempt_eq_ok_iff.mp h).2.2
  | error e =>
    -- the first place that fails tells why, and those before it are decided
    obtain ⟨before, ⟨tuple, place⟩, after, hsplit, hfails, hbefore⟩ := mapM_eq_error_iff.mp hrun
    obtain ⟨htuple, hfront⟩ := zipIdx_eq_append_cons hsplit
    have hplace := (List.getElem?_eq_some_iff.mp htuple).1
    have hdecided : filter.DecidedBefore tuples (s.seen flag) place :=
      decidedBefore_of_attempt s fun i hi u hu => hbefore (u, i) (hfront i hi u hu)
    have hseen := s.seen_eq_some hplace flag
    rcases attempt_eq_error_iff.mp hfails with ⟨hset, rfl⟩ | ⟨hclear, he⟩
    · exact .cancelled hdecided hplace (hset ▸ hseen)
    · rcases filter.evaluate_cases tuple with ⟨verdict, hverdict⟩ | ⟨cause, hcause⟩
      · rw [hverdict] at he
        cases he
      · obtain rfl := Except.error.inj (he.symm.trans hcause)
        exact .failed hdecided htuple (hclear ▸ hseen) hcause

/-- A flag that the first tuple sees set keeps the batch from its verdicts. -/
theorem evaluateAll_of_seen_set (s : Schedule tuples.length) (hne : tuples ≠ [])
    (hseen : s.seen flag 0 = some true) :
    filter.evaluateAll s.executor (s.cancelled flag) tuples = .error .cancelled := by
  obtain ⟨tuple, rest, rfl⟩ := List.exists_cons_of_ne_nil hne
  have hset : s.cancelled flag 0 = true := by
    rw [Schedule.cancelled, hseen]
    rfl
  rw [evaluateAll, run_eq_mapM, List.zipIdx_cons, List.mapM_cons, hset]
  rfl

/-- So does one that is set from the start and never cleared. -/
theorem evaluateAll_of_not_reset (s : Schedule tuples.length)
    (hreset : FlagEvent.reset ∉ s.flagEvents) (hne : tuples ≠ []) :
    filter.evaluateAll s.executor (s.cancelled true) tuples = .error .cancelled := by
  have hcheck := s.check_mem_flagEvents (List.length_pos_of_ne_nil hne)
  exact evaluateAll_of_seen_set s hne (flagSeen_of_not_reset hcheck hreset)

/-- The satisfying tuples are picked by the verdicts for the batch. -/
theorem select_eq_map (s : Schedule tuples.length) :
    filter.select s.executor (s.cancelled flag) tuples =
      (filter.evaluateAll s.executor (s.cancelled flag) tuples).map fun verdicts =>
        ((tuples.zip verdicts).filter fun item => item.2.isSatisfied).map Prod.fst := by
  rw [select, evaluateAll, run_eq_mapM]
  cases hrun : tuples.zipIdx.mapM fun item =>
      filter.attempt (s.cancelled flag item.2) item.1 with
  | error e => rfl
  | ok decided =>
    rw [mapM_eq_ok_iff] at hrun
    -- every result comes with its own tuple
    have hfst : tuples = decided.map Prod.fst := by
      rw [← List.forall₂_eq_eq_eq, List.forall₂_map_right_iff, ← List.zipIdx_map_fst 0 tuples,
        List.forall₂_map_left_iff]
      exact hrun.imp fun _ _ h => (attempt_eq_ok_iff.mp h).2.1.symm
    have hzip : decided = tuples.zip (decided.map Prod.snd) := List.zip_of_prod hfst.symm rfl
    exact congrArg (fun items => Except.ok ((items.filter fun item : NodeTuple × Verdict =>
      item.2.isSatisfied).map Prod.fst)) hzip

/-- **The outcome of a batch.** Whatever the order in which the workers look at the flag, evaluate and
finish the tuples, and whenever the flag is set and cleared meanwhile, a batch gives the verdicts of
all its tuples in their order, or the error of a tuple, or that it was cancelled because a tuple saw
the flag set; and every tuple in front of that one was evaluated to a verdict. If there is a tuple
and the flag is set from the start and never cleared, the batch is cancelled. Selecting gives the
satisfying tuples of the same outcome, in their order. -/
theorem batch_outcome (filter : ConstraintFilter) (tuples : List NodeTuple) (flag : Bool)
    (s : Schedule tuples.length) :
    let outcome := filter.evaluateAll s.executor (s.cancelled flag) tuples
    filter.BatchOutcome tuples (s.seen flag) outcome ∧
      (tuples ≠ [] → flag = true → FlagEvent.reset ∉ s.flagEvents →
        outcome = .error .cancelled) ∧
      filter.select s.executor (s.cancelled flag) tuples = outcome.map fun verdicts =>
        ((tuples.zip verdicts).filter fun item => item.2.isSatisfied).map Prod.fst := by
  refine ⟨batchOutcome_evaluateAll s, fun hne hflag hreset => ?_, select_eq_map s⟩
  subst hflag
  exact evaluateAll_of_not_reset s hreset hne

/-- Two tuples, of which the second one is checked first. The flag is set from the start; or when both
tuples have been checked; or in between; or it is set from the start and cleared before both are
checked. -/
theorem batch_outcome_interleaved :
    let filter : ConstraintFilter := ⟨.structural .descendant ⟨"s"⟩ ⟨true, [.named ⟨"", "a"⟩ 1]⟩,
      .ofTree branchedTree, .standard, .sequential⟩
    let below : NodeTuple := ⟨[(⟨"s"⟩, some 2)]⟩
    let beside : NodeTuple := ⟨[(⟨"s"⟩, some 1)]⟩
    let s : Schedule [below, beside].length := ⟨[.flag (.check 1), .evaluate 1, .flag (.check 0),
      .flag .cancel, .finish 1, .evaluate 0, .finish 0], by decide⟩
    let stopped : Schedule [below, beside].length := ⟨[.flag (.check 1), .evaluate 1, .flag .cancel,
      .flag (.check 0), .finish 1, .evaluate 0, .finish 0], by decide⟩
    let cleared : Schedule [below, beside].length := ⟨[.flag .cancel, .flag .reset, .flag (.check 1),
      .evaluate 1, .flag (.check 0), .finish 1, .evaluate 0, .finish 0], by decide⟩
    [below, beside] ≠ [] ∧ FlagEvent.reset ∉ s.flagEvents ∧ s.order = [1, 0] ∧
      filter.evaluateAll s.executor (s.cancelled true) [below, beside] = .error .cancelled ∧
      filter.evaluateAll s.executor (s.cancelled false) [below, beside] =
        .ok [.satisfied, .unsatisfied] ∧
      filter.select s.executor (s.cancelled false) [below, beside] = .ok [below] ∧
      stopped.seen false 0 = some true ∧
      filter.evaluateAll stopped.executor (stopped.cancelled false) [below, beside] =
        .error .cancelled ∧
      cleared.seen true 0 = some false ∧ cleared.seen true 1 = some false ∧
      filter.evaluateAll cleared.executor (cleared.cancelled true) [below, beside] =
        .ok [.satisfied, .unsatisfied] := by
  intro filter below beside s stopped cleared
  have hne : [below, beside] ≠ [] := List.cons_ne_nil _ _
  have hreset : FlagEvent.reset ∉ s.flagEvents := by decide
  have hdecided : filter.evaluateAll s.executor (s.cancelled false) [below, beside] =
      .ok [.satisfied, .unsatisfied] := by
    rw [evaluateAll, run_eq_mapM]
    decide +kernel
  have hset := batch_outcome filter [below, beside] true s
  have hclear := batch_outcome filter [below, beside] false s
  have hstopped : stopped.seen false 0 = some true :=
    flagSeen_of_cancel [.check 1] [] (by decide) nofun nofun false
  have hcleared : cleared.seen true 0 = some false ∧ cleared.seen true 1 = some false :=
    ⟨flagSeen_of_reset [.cancel] [.check 1] nofun (by decide) nofun true,
      flagSeen_of_reset [.cancel] [] nofun nofun nofun true⟩
  refine ⟨hne, hreset, by decide, hset.2.1 hne rfl hreset, hdecided, ?_, hstopped, ?_,
    hcleared.1, hcleared.2, ?_⟩
  · rw [hclear.2.2, hdecided]
    rfl
  · exact evaluateAll_of_seen_set stopped hne hstopped
  · rw [evaluateAll, run_eq_mapM]
    decide +kernel

end ConstraintFilter

end ContentQuery.Filter
