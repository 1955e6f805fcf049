import ContentQuery.Naming.Path
import Mathlib

/-! # Normal forms of paths

A step that stays does nothing, and a climb undoes the descent in front of it. Whatever takes steps in
a way that respects this takes the normal form of a path as it takes the path. Normalization itself
does, so it makes no difference whether the parts of a path are normalized before they are joined.

What is left of a path are climbs with descents behind them, and of an absolute path descents only. It
has no normal form if it is absolute and some first steps of it climb more often than they descend.
-/

namespace ContentQuery.Naming

variable {steps : List Step}

/-- All steps descend. -/
def Descents (steps : List Step) : Prop :=
  ∀ step ∈ steps, ∃ name index, step = .named name index

@[simp] theorem descents_nil : Descents [] := fun _ hstep => nomatch hstep

theorem descents_cons_iff {step : Step} : Descents (step :: steps) ↔
    (∃ name index, step = .named name index) ∧ Descents steps :=
  List.forall_mem_cons

theorem Descents.reverse (h : Descents steps) : Descents steps.reverse :=
  fun step hstep => h step (List.mem_reverse.mp hstep)

namespace Path

/-! ## One step after the other -/

/-- Steps are normalized one after the other, so a path can be cut anywhere. -/
theorem normalizeOnto?_append (absolute : Bool) (stack steps more : List Step) :
    normalizeOnto? absolute stack (steps ++ more) =
      (normalizeOnto? absolute stack steps).bind fun left => normalizeOnto? absolute left more := by
  induction steps generalizing stack with
  | nil => rfl
  | cons step steps ih =>
    rw [List.cons_append]
    cases step with
    | current => rw [normalizeOnto?, normalizeOnto?, ih]
    | named name index => rw [normalizeOnto?, normalizeOnto?, ih]
    | parent =>
      -- a climb asks whether there is a descent on top of the stack
      rcases stack with _ | ⟨_ | _ | ⟨name, index⟩, stack⟩ <;> simp only [normalizeOnto?]
      case cons.named => exact ih _
      all_goals
        split
        · rfl
        · exact ih _

/-- Take one step onto the stack. -/
def push? (absolute : Bool) (stack : List Step) (step : Step) : Option (List Step) :=
  normalizeOnto? absolute stack [step]

/-- Normalizing is a fold of what one step does to the stack. -/
theorem normalizeOnto?_eq_foldlM (absolute : Bool) (stack steps : List Step) :
    normalizeOnto? absolute stack steps = steps.foldlM (push? absolute) stack := by
  induction steps generalizing stack with
  | nil => rfl
  | cons step steps ih =>
    rw [← List.singleton_append, normalizeOnto?_append, List.singleton_append, List.foldlM_cons]
    exact congrArg _ (funext ih)

theorem normalize?_eq_foldlM (p : Path) : p.normalize? =
    (p.steps.foldlM (push? p.absolute) []).map fun stack => ⟨p.absolute, stack.reverse⟩ := by
  rw [normalize?, normalizeOnto?_eq_foldlM]

/-- A normal form has the steps that are left on the stack, and is absolute like the path. -/
theorem normalize?_eq_some_iff {p q : Path} : p.normalize? = some q ↔ q.absolute = p.absolute ∧
    normalizeOnto? p.absolute [] p.steps = some q.steps.reverse := by
  obtain ⟨absolute, steps⟩ := q
  rw [normalize?, Option.map_eq_some_iff]
  constructor
  · rintro ⟨stack, hstack, heq⟩
    cases heq
    exact ⟨rfl, by rw [hstack, List.reverse_reverse]⟩
  · rintro ⟨rfl, hstack⟩
    exact ⟨steps.reverse, hstack, by rw [List.reverse_reverse]⟩

/-! ## What cancels -/

/-- A step that stays does nothing, and a climb undoes the descent in front of it. -/
structure Cancels {σ : Type} (take : σ → Step → Option σ) : Prop where
  current : ∀ s, take s .current = some s
  named_parent : ∀ s name index,
    (take s (.named name index)).bind (fun s' => take s' .parent) = some s

/-- The stack of normalizing forgets dots and pairs that cancel. -/
theorem cancels_push? (absolute : Bool) : Cancels (push? absolute) where
  current := fun stack => by rw [push?, normalizeOnto?, normalizeOnto?]
  named_parent := fun stack name index => by simp [push?, normalizeOnto?]

namespace Cancels

variable {σ : Type} {take : σ → Step → Option σ} (h : Cancels take)
include h

/-- Taking steps onto a stack takes out only steps that cancel. -/
theorem foldlM_normalizeOnto? {absolute : Bool} {stack left : List Step}
    (hleft : normalizeOnto? absolute stack steps = some left) (s : σ) :
    (stack.reverse ++ steps).foldlM take s = left.reverse.foldlM take s := by
  -- the stack moves along the path, from the steps to come to the steps kept
  induction steps generalizing stack with
  | nil =>
    rw [normalizeOnto?, Option.some.injEq] at hleft
    rw [List.append_nil, hleft]
  | cons step steps ih =>
    cases step with
    | current =>
      rw [normalizeOnto?] at hleft
      rw [← ih hleft, List.foldlM_append, List.foldlM_append]
      simp [h.current]
    | named name index =>
      rw [normalizeOnto?] at hleft
      simpa using ih hleft
    | parent =>
      rcases stack with _ | ⟨_ | _ | ⟨name, index⟩, stack⟩ <;> simp only [normalizeOnto?] at hleft
      case cons.named =>
        have hundo : ∀ s, [.named name index, .parent].foldlM take s = some s := fun s => by
          simpa using h.named_parent s name index
        have hsteps : (.named name index :: stack).reverse ++ .parent :: steps =
            stack.reverse ++ ([.named name index, .parent] ++ steps) := by simp
        rw [hsteps, ← ih hleft, List.foldlM_append, List.foldlM_append]
        congr 1
        funext s
        rw [List.foldlM_append, hundo]
        rfl
      all_goals
        split at hleft
        · cases hleft
        · simpa using ih hleft

/-- A path and its normal form are taken alike. -/
theorem foldlM_normalize? {p q : Path} (hq : p.normalize? = some q) (s : σ) :
    q.steps.foldlM take s = p.steps.foldlM take s := by
  have hsteps := h.foldlM_normalizeOnto? (normalize?_eq_some_iff.mp hq).2 s
  rw [List.reverse_reverse] at hsteps
  exact hsteps.symm

end Cancels

theorem absolute_of_normalize?_eq_some {p q : Path} (h : p.normalize? = some q) :
    q.absolute = p.absolute :=
  (normalize?_eq_some_iff.mp h).1

/-- A normal form is its own. -/
theorem normalize?_idempotent {p q : Path} (h : p.normalize? = some q) : q.normalize? = some q := by
  rw [← h, normalize?_eq_foldlM, normalize?_eq_foldlM, absolute_of_normalize?_eq_some h,
    (cancels_push? p.absolute).foldlM_normalize? h]

/-! ## Joined paths -/

/-- The relative path without steps. -/
def here : Path := ⟨false, []⟩

theorem join_of_absolute (p : Path) {q : Path} (hq : q.absolute = true) : p.join q = q := by
  rw [join, if_pos hq]

theorem join_of_relative (p : Path) {q : Path} (hq : q.absolute = false) :
    p.join q = ⟨p.absolute, p.steps ++ q.steps⟩ := by
  rw [join, hq, if_neg Bool.false_ne_true]

/-- It does not matter which of two joins is made first, as an absolute path takes over in both. -/
theorem join_assoc (p q r : Path) : (p.join q).join r = p.join (q.join r) := by
  cases hr : r.absolute
  · cases hq : q.absolute
    · simp [join, hr, hq]
    · simp [join, hr, hq]
  · simp [join, hr]

/-- A relative path is taken onto what is left of the path in front of it. -/
theorem normalize?_join_of_relative (p : Path) {q : Path} (hq : q.absolute = false) :
    (p.join q).normalize? =
      ((p.steps.foldlM (push? p.absolute) []).bind fun stack =>
        q.steps.foldlM (push? p.absolute) stack).map fun stack => ⟨p.absolute, stack.reverse⟩ := by
  rw [join_of_relative p hq, normalize?_eq_foldlM, List.foldlM_append]
  rfl

/-- **Paths are a monoid, and normalization respects it.** Joining is associative, and the relative path
without steps is its identity. Either path may be normalized before they are joined, and where the
first has no normal form, no relative path joined to it gives it one. -/
theorem join_monoid_normalize? (p q r : Path) :
    (p.join q).join r = p.join (q.join r) ∧ p.join here = p ∧ here.join p = p ∧
      (∀ p', p.normalize? = some p' → (p.join q).normalize? = (p'.join q).normalize?) ∧
      (∀ q', q.normalize? = some q' → (p.join q).normalize? = (p.join q').normalize?) ∧
      (p.normalize? = none → q.absolute = false → (p.join q).normalize? = none) := by
  refine ⟨join_assoc p q r, ?_, ?_, fun p' hp' => ?_, fun q' hq' => ?_, fun hp hq => ?_⟩
  · rw [join_of_relative p rfl, here, List.append_nil]
  · cases hp : p.absolute
    · rw [join_of_relative here hp, here, List.nil_append, ← hp]
    · rw [join_of_absolute here hp]
  -- an absolute path on the right takes over, and a relative one goes on from the stack
  · cases hq : q.absolute
    · rw [normalize?_join_of_relative p hq, normalize?_join_of_relative p' hq,
        absolute_of_normalize?_eq_some hp', (cancels_push? p.absolute).foldlM_normalize? hp']
    · rw [join_of_absolute p hq, join_of_absolute p' hq]
  · have habsolute := absolute_of_normalize?_eq_some hq'
    cases hq : q.absolute
    · rw [normalize?_join_of_relative p hq, normalize?_join_of_relative p (habsolute.trans hq)]
      simp only [(cancels_push? p.absolute).foldlM_normalize? hq']
    · rw [join_of_absolute p hq, join_of_absolute p (habsolute.trans hq), hq',
        normalize?_idempotent hq']
  · rw [normalize?_eq_foldlM, Option.map_eq_none_iff] at hp
    rw [normalize?_join_of_relative p hq, hp]
    rfl

/-- A path of which too much is taken back, a path to join to it, and one that climbs above the root. -/
theorem join_monoid_normalize?_climbing :
    let named := fun text => Step.named ⟨"", text⟩ 1
    let p : Path := ⟨false, [named "a", .parent, .parent, named "b"]⟩
    let q : Path := ⟨false, [.parent, .current, .parent, named "c"]⟩
    let above : Path := ⟨true, [named "a", .parent, .parent, named "b"]⟩
    p.normalize? = some ⟨false, [.parent, named "b"]⟩ ∧
      q.normalize? = some ⟨false, [.parent, .parent, named "c"]⟩ ∧
      above.normalize? = none ∧ q.absolute = false ∧
      (p.join q).normalize? = ((⟨false, [.parent, named "b"]⟩ : Path).join q).normalize? ∧
      (p.join q).normalize? = (p.join ⟨false, [.parent, .parent, named "c"]⟩).normalize? ∧
      (above.join q).normalize? = none := by
  intro named p q above
  have hp : p.normalize? = some ⟨false, [.parent, named "b"]⟩ := by decide
  have hq : q.normalize? = some ⟨false, [.parent, .parent, named "c"]⟩ := by decide
  have habove : above.normalize? = none := by decide
  obtain ⟨-, -, -, hleft, hright, -⟩ := join_monoid_normalize? p q q
  obtain ⟨-, -, -, -, -, hnone⟩ := join_monoid_normalize? above q q
  exact ⟨hp, hq, habove, rfl, hleft _ hp, hright _ hq, hnone habove rfl⟩

/-! ## What is left -/

/-- Steps that descend are kept. -/
theorem normalizeOnto?_of_descents {absolute : Bool} {stack : List Step} (hsteps : Descents steps) :
    normalizeOnto? absolute stack steps = some (steps.reverse ++ stack) := by
  induction steps generalizing stack with
  | nil => simp [normalizeOnto?]
  | cons step steps ih =>
    rw [descents_cons_iff] at hsteps
    obtain ⟨⟨name, index, rfl⟩, hsteps⟩ := hsteps
    rw [normalizeOnto?, ih hsteps, List.reverse_cons, List.append_assoc]
    rfl

/-- What is left of an absolute path are steps that descend. -/
theorem descents_of_normalizeOnto? {stack left : List Step} (hstack : Descents stack)
    (h : normalizeOnto? true stack steps = some left) : Descents left := by
  induction steps generalizing stack with
  | nil =>
    rw [normalizeOnto?, Option.some.injEq] at h
    exact h ▸ hstack
  | cons step steps ih =>
    cases step with
    | current => exact ih hstack (by rwa [normalizeOnto?] at h)
    | parent =>
      -- a climb takes the descent on top away, and without one it fails
      cases stack with
      | nil => simp [normalizeOnto?] at h
      | cons top stack =>
        rw [descents_cons_iff] at hstack
        obtain ⟨⟨name, index, rfl⟩, hstack⟩ := hstack
        exact ih hstack (by rwa [normalizeOnto?] at h)
    | named name index =>
      refine ih ?_ (by rwa [normalizeOnto?] at h)
      exact descents_cons_iff.mpr ⟨⟨name, index, rfl⟩, hstack⟩

/-- Steps taken onto descents over climbs leave descents over climbs, not fewer of them. Taken onto
an absolute path instead, the climbs take its last descents away, and they cannot outnumber these. -/
theorem normalizeOnto?_climbs {down : List Step} (hdown : Descents down) (k : ℕ)
    (steps : List Step) :
    ∃ k' down', k ≤ k' ∧ Descents down' ∧
      normalizeOnto? false (down ++ List.replicate k .parent) steps =
        some (down' ++ List.replicate k' .parent) ∧
      ∀ base, Descents base → k ≤ base.length →
        normalizeOnto? true (down ++ base.drop k) steps =
          if k' ≤ base.length then some (down' ++ base.drop k') else none := by
  induction steps generalizing down k with
  | nil => exact ⟨k, down, le_rfl, hdown, rfl, fun base _ hk => (if_pos hk).symm⟩
  | cons step steps ih =>
    cases step with
    | current =>
      obtain ⟨k', down', hle, hdown', hrelative, habsolute⟩ := ih hdown k
      refine ⟨k', down', hle, hdown', ?_, fun base hbase hk => ?_⟩
      · rw [normalizeOnto?, hrelative]
      · rw [normalizeOnto?, habsolute base hbase hk]
    | named name index =>
      have hcons : Descents (.named name index :: down) :=
        descents_cons_iff.mpr ⟨⟨name, index, rfl⟩, hdown⟩
      obtain ⟨k', down', hle, hdown', hrelative, habsolute⟩ := ih hcons k
      refine ⟨k', down', hle, hdown', ?_, fun base hbase hk => ?_⟩
      · rw [normalizeOnto?, ← List.cons_append, hrelative]
      · rw [normalizeOnto?, ← List.cons_append, habsolute base hbase hk]
    | parent =>
      cases down with
      | cons top down =>
        rw [descents_cons_iff] at hdown
        obtain ⟨⟨name, index, rfl⟩, hdown⟩ := hdown
        obtain ⟨k', down', hle, hdown', hrelative, habsolute⟩ := ih hdown k
        refine ⟨k', down', hle, hdown', ?_, fun base hbase hk => ?_⟩
        · rw [List.cons_append, normalizeOnto?, hrelative]
        · rw [List.cons_append, normalizeOnto?, habsolute base hbase hk]
      | nil =>
        -- one climb more, which stays on one stack and takes a descent from the other
        obtain ⟨k', down', hle, hdown', hrelative, habsolute⟩ := ih hdown (k + 1)
        refine ⟨k', down', by omega, hdown', ?_, fun base hbase hk => ?_⟩
        · rw [List.nil_append, ← hrelative, List.nil_append, List.replicate_succ]
          cases k <;> rfl
        · rw [List.nil_append]
          by_cases hlt : k < base.length
          · obtain ⟨name, index, htop⟩ := hbase _ (List.getElem_mem hlt)
            rw [List.drop_eq_getElem_cons hlt, htop, normalizeOnto?, ← habsolute base hbase hlt,
              List.nil_append]
          · rw [List.drop_eq_nil_of_le (Nat.le_of_not_lt hlt), if_neg (by omega)]
            rfl

/-- A relative path is normalized to climbs and descents. Behind an absolute path of descents, the
climbs take its last steps away. -/
theorem exists_normalize?_relative {r : Path} (hr : r.absolute = false) :
    ∃ k down, Descents down ∧
      r.normalize? = some ⟨false, List.replicate k .parent ++ down⟩ ∧
      ∀ base, Descents base → (⟨true, base ++ r.steps⟩ : Path).normalize? =
        if k ≤ base.length then some ⟨true, base.take (base.length - k) ++ down⟩ else none := by
  obtain ⟨k, down, -, hdown, hrelative, habsolute⟩ :=
    normalizeOnto?_climbs descents_nil 0 r.steps
  refine ⟨k, down.reverse, hdown.reverse, ?_, fun base hbase => ?_⟩
  · rw [normalize?, hr]
    simp only [List.nil_append, List.replicate_zero] at hrelative
    simp [hrelative]
  -- behind a base the climbing takes off its last steps, if it has as many
  · have hbase' := habsolute base.reverse hbase.reverse (Nat.zero_le _)
    rw [List.drop_zero, List.nil_append, List.length_reverse] at hbase'
    rw [normalize?, normalizeOnto?_append, normalizeOnto?_of_descents hbase, List.append_nil]
    simp only [Option.bind_some, hbase']
    split
    · simp [List.drop_reverse]
    · rfl

/-- Climbs with descents behind them, and in an absolute path no climbs. -/
def IsNormal (p : Path) : Prop :=
  ∃ climbs down, Descents down ∧ p.steps = List.replicate climbs .parent ++ down ∧
    (p.absolute = true → climbs = 0)

theorem IsNormal.descents {p : Path} (h : p.IsNormal) (habsolute : p.absolute = true) :
    Descents p.steps := by
  obtain ⟨climbs, down, hdown, hsteps, hclimbs⟩ := h
  rw [hsteps, hclimbs habsolute]
  exact hdown

theorem isNormal_of_normalize? {p q : Path} (h : p.normalize? = some q) : q.IsNormal := by
  obtain ⟨habsolute, hleft⟩ := normalize?_eq_some_iff.mp h
  cases hp : p.absolute
  · obtain ⟨climbs, down, hdown, hnormal, -⟩ := exists_normalize?_relative hp
    cases h.symm.trans hnormal
    exact ⟨climbs, down, hdown, rfl, by simp⟩
  · rw [hp] at hleft
    have hdown := (descents_of_normalizeOnto? descents_nil hleft).reverse
    rw [List.reverse_reverse] at hdown
    exact ⟨0, q.steps, hdown, rfl, fun _ => rfl⟩

/-! ## Where there is no normal form -/

/-- Some first steps climb more often than they descend from the given depth. -/
def ClimbsOut (depth : ℕ) (steps : List Step) : Prop :=
  ∃ front, front <+: steps ∧ depth + front.countP (·.name?.isSome) < front.count .parent

theorem not_climbsOut_nil (depth : ℕ) : ¬ ClimbsOut depth [] := by
  rintro ⟨front, hfront, hlt⟩
  rw [List.prefix_nil.mp hfront] at hlt
  simp at hlt

/-- What a first step changes is the depth that the others start from. -/
theorem climbsOut_cons_iff {depth : ℕ} {step : Step} : ClimbsOut depth (step :: steps) ↔
    ∃ front, front <+: steps ∧ depth + (step :: front).countP (·.name?.isSome) <
      (step :: front).count .parent := by
  constructor
  · rintro ⟨front, hfront, hlt⟩
    rcases List.prefix_cons_iff.mp hfront with rfl | ⟨rest, rfl, hrest⟩
    · simp at hlt
    · exact ⟨rest, hrest, hlt⟩
  · rintro ⟨front, hfront, hlt⟩
    exact ⟨step :: front, List.prefix_cons_inj step |>.mpr hfront, hlt⟩

theorem climbsOut_current_iff {depth : ℕ} :
    ClimbsOut depth (.current :: steps) ↔ ClimbsOut depth steps := by
  rw [climbsOut_cons_iff]
  exact exists_congr fun front => by simp [Step.name?]

/-- A name leads one level down. -/
theorem climbsOut_named_iff {depth : ℕ} {name : Name} {index : UInt32} :
    ClimbsOut depth (.named name index :: steps) ↔ ClimbsOut (depth + 1) steps := by
  rw [climbsOut_cons_iff]
  refine exists_congr fun front => and_congr_right fun _ => ?_
  rw [List.countP_cons_of_pos rfl, List.count_cons_of_ne (by simp)]
  omega

/-- Two dots lead one level up, if there is one. -/
theorem climbsOut_parent_iff {depth : ℕ} :
    ClimbsOut (depth + 1) (.parent :: steps) ↔ ClimbsOut depth steps := by
  rw [climbsOut_cons_iff]
  refine exists_congr fun front => and_congr_right fun _ => ?_
  rw [List.countP_cons_of_neg (by simp [Step.name?]), List.count_cons_self]
  omega

theorem climbsOut_zero_parent : ClimbsOut 0 (.parent :: steps) :=
  climbsOut_cons_iff.mpr ⟨[], List.nil_prefix, by simp [Step.name?]⟩

/-- The steps of an absolute path are impossible exactly if they climb out of the descents on the
stack. -/
theorem normalizeOnto?_eq_none_iff {stack : List Step} (hstack : Descents stack) :
    normalizeOnto? true stack steps = none ↔ ClimbsOut stack.length steps := by
  -- the stack is as high as the depth that is counted
  induction steps generalizing stack with
  | nil => simp [normalizeOnto?, not_climbsOut_nil]
  | cons step steps ih =>
    cases step with
    | current => rw [normalizeOnto?, ih hstack, climbsOut_current_iff]
    | named name index =>
      rw [normalizeOnto?, ih (descents_cons_iff.mpr ⟨⟨name, index, rfl⟩, hstack⟩),
        climbsOut_named_iff, List.length_cons]
    | parent =>
      cases stack with
      | nil => exact iff_of_true rfl climbsOut_zero_parent
      | cons top stack =>
        rw [descents_cons_iff] at hstack
        obtain ⟨⟨name, index, rfl⟩, hstack⟩ := hstack
        rw [normalizeOnto?, ih hstack, List.length_cons, climbsOut_parent_iff]

/-- Only an absolute path that climbs out at some step has no normal form. -/
theorem normalize?_eq_none_iff {p : Path} :
    p.normalize? = none ↔ p.absolute = true ∧ ClimbsOut 0 p.steps := by
  cases hp : p.absolute
  · obtain ⟨climbs, down, -, hnormal, -⟩ := exists_normalize?_relative hp
    simp [hnormal]
  · rw [normalize?, hp, Option.map_eq_none_iff, normalizeOnto?_eq_none_iff descents_nil]
    simp

/-! ## Walks over names -/

/-- Take a step over a stack of names with their indexes: a descent puts its name on top, and a climb
takes the name on top away, so it needs one. -/
def stepOver? (names : List (Name × UInt32)) : Step → Option (List (Name × UInt32))
  | .current => some names
  | .parent =>
    match names with
    | [] => none
    | _ :: names => some names
  | .named name index => some ((name, index) :: names)

/-- The stack that is left when all steps of the path are taken, if that is possible. -/
def walkOver? (p : Path) (names : List (Name × UInt32)) : Option (List (Name × UInt32)) :=
  p.steps.foldlM stepOver? names

/-- A walk with a stack forgets dots and pairs that cancel, too. -/
theorem cancels_stepOver? : Cancels stepOver? where
  current := fun _ => rfl
  named_parent := fun _ _ _ => rfl

/-- **Normalization gives the normal form.** There is none exactly if the path is absolute and some first
steps of it climb more often than they descend. Otherwise the normal form starts where the path does,
has climbs in front of descents and no other steps, and no climbs if it is absolute. It is its own normal
form, and from any stack of names the walk along it ends as that along the path. -/
theorem normalize?_normal_form (p : Path) :
    (p.normalize? = none ↔ p.absolute = true ∧ ∃ front, front <+: p.steps ∧
      front.countP (·.name?.isSome) < front.count .parent) ∧
    ∀ q, p.normalize? = some q → q.absolute = p.absolute ∧
      (∃ climbs down, Descents down ∧ q.steps = List.replicate climbs .parent ++ down ∧
        (q.absolute = true → climbs = 0)) ∧
      q.normalize? = some q ∧ ∀ names, q.walkOver? names = p.walkOver? names := by
  refine ⟨?_, fun q hq => ⟨absolute_of_normalize?_eq_some hq, isNormal_of_normalize? hq,
    normalize?_idempotent hq, cancels_stepOver?.foldlM_normalize? hq⟩⟩
  rw [normalize?_eq_none_iff]
  simp [ClimbsOut]

/-- A path with steps of all kinds, which can be walked from a stack with one name on it, and an absolute
path that climbs out behind its third step. -/
theorem normalize?_normal_form_tangled :
    let named := fun text => Step.named ⟨"", text⟩ 1
    let p : Path := ⟨false, [named "a", .current, .parent, .parent, named "b", named "c", .parent]⟩
    let q : Path := ⟨false, [.parent, named "b"]⟩
    let above : Path := ⟨true, [named "a", .parent, .parent, named "b"]⟩
    p.normalize? = some q ∧
      (∃ climbs down, Descents down ∧ q.steps = List.replicate climbs .parent ++ down ∧
        (q.absolute = true → climbs = 0)) ∧
      q.normalize? = some q ∧ (∀ names, q.walkOver? names = p.walkOver? names) ∧
      p.walkOver? [(⟨"", "x"⟩, 2)] = some [(⟨"", "b"⟩, 1)] ∧ p.walkOver? [] = none ∧
      (∃ front, front <+: above.steps ∧ front.countP (·.name?.isSome) < front.count .parent) ∧
      above.normalize? = none := by
  intro named p q above
  have hq : p.normalize? = some q := by decide
  obtain ⟨-, hnormal, hsame, hwalk⟩ := (normalize?_normal_form p).2 q hq
  have hclimbs : ∃ front, front <+: above.steps ∧
      front.countP (·.name?.isSome) < front.count .parent :=
    ⟨[named "a", .parent, .parent], ⟨[named "b"], rfl⟩, by decide⟩
  exact ⟨hq, hnormal, hsame, hwalk, by decide, by decide, hclimbs,
    (normalize?_normal_form above).1.mpr ⟨rfl, hclimbs⟩⟩

end Path

end ContentQuery.Naming
