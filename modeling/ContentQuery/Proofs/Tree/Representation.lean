import ContentQuery.Proofs.Tree.WellFormed
import ContentQuery.Tree.History

/-! # Parents and lists of children

A tree stores twice what is below what: each node has its parent, and the parent lists it. Both tell
the same of every tree that a history leads to, and there every node but the root is listed once, and
behind its parent and all siblings that were added earlier. The trees that histories lead to are those
that are reached by changes that succeed, as one that fails leaves no trace.
-/

namespace ContentQuery.Tree

open Naming

variable {t t' : Tree}

/-! ## Histories -/

theorem after_cons_ok {change : Change} (h : change.apply t = .ok t') (changes : List Change) :
    t.after (change :: changes) = t'.after changes := by
  rw [after, h]

/-- A change that fails leaves the tree to the next one. -/
theorem after_cons_error {change : Change} {e : NavigationError} (h : change.apply t = .error e)
    (changes : List Change) : t.after (change :: changes) = t.after changes := by
  rw [after, h]

/-- A history goes on from the tree that the one before it has left. -/
theorem after_append (before later : List Change) :
    t.after (before ++ later) = (t.after before).after later := by
  induction before generalizing t with
  | nil => rfl
  | cons change before ih =>
    rw [List.cons_append]
    cases h : change.apply t with
    | ok changed => rw [after_cons_ok h, after_cons_ok h, ih]
    | error e => rw [after_cons_error h, after_cons_error h, ih]

/-- A change that succeeds leads from a tree that is reached to another one. -/
theorem Reachable.of_apply (ht : Reachable t) {change : Change} (h : change.apply t = .ok t') :
    Reachable t' := by
  cases change with
  | addChild parent name =>
    obtain ⟨⟨_, child⟩, hadd, rfl⟩ := map_eq_ok_iff.mp h
    exact ht.addChild hadd
  | addPath path =>
    obtain ⟨⟨_, id⟩, hadd, rfl⟩ := map_eq_ok_iff.mp h
    exact ht.addPath hadd
  | setProperty id name values => exact ht.setProperty h
  | hide id => exact ht.hide h

/-- Histories lead from reached trees to reached trees. -/
theorem Reachable.after (ht : Reachable t) (changes : List Change) :
    Reachable (t.after changes) := by
  induction changes generalizing t with
  | nil => exact ht
  | cons change changes ih =>
    cases h : change.apply t with
    | ok changed =>
      rw [after_cons_ok h]
      exact ih (ht.of_apply h)
    | error e =>
      rw [after_cons_error h]
      exact ih ht

/-- The trees that are reached are those that histories lead to. -/
theorem reachable_iff_after : Reachable t ↔ ∃ changes, t = empty.after changes := by
  constructor
  · -- every change that succeeds is one more of a history
    have hlater : ∀ {t t' : Tree} (change : Change), (∃ changes, t = empty.after changes) →
        change.apply t = .ok t' → ∃ changes, t' = empty.after changes := by
      rintro _ t' change ⟨changes, rfl⟩ h
      exact ⟨changes ++ [change], by rw [after_append, after_cons_ok h]; rfl⟩
    intro ht
    induction ht with
    | empty => exact ⟨[], rfl⟩
    | @addChild _ _ parent _ name _ hadd ih =>
      exact hlater (.addChild parent name) ih (map_eq_ok_iff.mpr ⟨_, hadd, rfl⟩)
    | @addPath _ _ path _ _ hadd ih =>
      exact hlater (.addPath path) ih (map_eq_ok_iff.mpr ⟨_, hadd, rfl⟩)
    | @setProperty _ _ id name values _ hset ih => exact hlater (.setProperty id name values) ih hset
    | @hide _ _ id _ hhide ih => exact hlater (.hide id) ih hhide
  · rintro ⟨changes, rfl⟩
    exact Reachable.empty.after changes

/-! ## What every tree keeps -/

section Keeps

variable {P : Tree → Prop}
  (hpush : ∀ {t : Tree} {parent : NodeId} (name : Name), t.WellFormed → parent < t.size → P t →
    P (t.pushChild parent name))
include hpush

theorem WellFormed.keeps_pushChildren (h : t.WellFormed) {parent : NodeId} (hparent : parent < t.size)
    (name : Name) (n : ℕ) (ht : P t) : P (t.pushChildren parent name n) := by
  induction n generalizing t with
  | zero => exact ht
  | succ n ih =>
    have hparent' : parent < (t.pushChild parent name).size := by
      rw [size_pushChild]
      exact Nat.lt_succ_of_lt hparent
    exact ih (h.pushChild hparent name) hparent' (hpush name h hparent ht)

/-- What every new child keeps, ensuring steps keeps. -/
theorem WellFormed.keeps_ensureSteps (h : t.WellFormed) {start : NodeId} (hstart : start < t.size)
    (steps : List Step) (ht : P t) : P (t.ensureSteps start steps).1 := by
  induction steps generalizing t start with
  | nil => exact ht
  | cons step steps ih =>
    cases step with
    | current | parent => exact ih h hstart ht
    | named name index =>
      obtain ⟨hchild, hlt⟩ := h.ensureChild hstart name index
      refine ih hchild hlt ?_
      unfold Tree.ensureChild
      split
      · exact ht
      · exact h.keeps_pushChildren hpush hstart name _ ht

/-- What the empty tree has, and neither a new child nor a change that leaves parents and children alone
takes away, every tree has that is reached. -/
theorem Reachable.keeps (hempty : P Tree.empty)
    (hupdate : ∀ {t : Tree} (id : NodeId) {change : Node → Node}, KeepsPlace change → P t →
      P ⟨t.nodes.modify id change⟩) (ht : Reachable t) : P t := by
  -- a property and a mark change one node and nobody's place
  have hchanged : ∀ {t t' : Tree} {id : NodeId} {change : Node → Node},
      t.update id change = .ok t' → KeepsPlace change → P t → P t' := by
    intro t t' id change h hchange ht
    simp only [Tree.update, bind_eq_ok_iff, pure_eq_ok_iff] at h
    obtain ⟨_, -, rfl⟩ := h
    exact hupdate id hchange ht
  induction ht with
  | empty => exact hempty
  | @addChild t t' parent child name ht hadd ih =>
    simp only [Tree.addChild, bind_eq_ok_iff, pure_eq_ok_iff, node_eq_ok_iff] at hadd
    obtain ⟨node, hnode, heq⟩ := hadd
    cases heq
    exact hpush name ht.wellFormed (lt_size_iff.mpr ⟨node, hnode⟩) ih
  | @addPath t t' path id ht hadd ih =>
    unfold Tree.addPath at hadd
    split at hadd
    · next normal _ =>
      have hlast : (t.ensureSteps root normal.steps).1 = t' :=
        congrArg Prod.fst (Except.ok.inj hadd)
      rw [← hlast]
      exact ht.wellFormed.keeps_ensureSteps hpush ht.wellFormed.size_pos normal.steps ih
    · cases hadd
  | setProperty _ hset ih => exact hchanged hset ⟨fun _ => rfl, fun _ => rfl⟩ ih
  | hide _ hhide ih => exact hchanged hhide ⟨fun _ => rfl, fun _ => rfl⟩ ih

end Keeps

/-! ## The order of children -/

/-- A new child has the greatest number, so children are listed in increasing order. -/
theorem Reachable.sorted_children (ht : Reachable t) (parent : NodeId) :
    (t.children parent).Pairwise (· < ·) := by
  refine Reachable.keeps (P := fun t => ∀ parent, (t.children parent).Pairwise (· < ·)) ?_ ?_ ?_ ht
    parent
  · intro t added name h hadded hsorted parent
    rw [children_pushChild hadded]
    split
    -- the new child is listed last, and no node has a greater number
    · refine List.pairwise_append.mpr ⟨hsorted parent, List.pairwise_singleton _ _, ?_⟩
      intro child hchild last hlast
      rw [List.mem_singleton.mp hlast]
      exact h.lt_size_of_parentOf? (h.mem_children_iff.mp hchild)
    · exact hsorted parent
  · intro parent
    cases parent <;> simp [children, Tree.empty, Node.fresh]
  · intro t id change hchange hsorted parent
    rw [hchange.children_modify]
    exact hsorted parent

/-! ## All children -/

/-- The lists of children of all nodes, one behind the other. -/
def allChildren (t : Tree) : List NodeId := (List.range t.size).flatMap t.children

namespace WellFormed

variable (h : t.WellFormed)
include h

/-- All nodes but the root are listed, and nothing else is. -/
theorem mem_allChildren_iff {id : NodeId} : id ∈ t.allChildren ↔ id ≠ root ∧ id < t.size := by
  rw [allChildren, List.mem_flatMap]
  constructor
  · rintro ⟨parent, -, hid⟩
    rw [h.mem_children_iff] at hid
    refine ⟨?_, h.lt_size_of_parentOf? hid⟩
    rintro rfl
    rw [h.parentOf?_root] at hid
    cases hid
  · rintro ⟨hroot, hid⟩
    obtain ⟨parent, hp⟩ := h.exists_parent hid hroot
    exact ⟨parent, List.mem_range.mpr (h.parent_lt_size hp), h.mem_children_iff.mpr hp⟩

/-- No node is listed twice: not by one parent, and not by two. -/
theorem nodup_allChildren : t.allChildren.Nodup := by
  rw [allChildren, List.nodup_flatMap]
  refine ⟨fun parent _ => h.nodup_children parent, List.nodup_range.imp ?_⟩
  intro parent parent' hne id hid hid'
  rw [h.mem_children_iff] at hid hid'
  exact hne (Option.some.inj (hid.symm.trans hid'))

end WellFormed

/-! ## Agreement -/

/-- Parents and lists of children tell the same: the root has no parent, and every other node has one
with a smaller number, that lists it, and is listed nowhere else. Lists of children are in increasing
order and hold nodes only. -/
structure Consistent (t : Tree) : Prop where
  root_lt_size : root < t.size
  parentOf?_root : t.parentOf? root = none
  exists_parent : ∀ id < t.size, id ≠ root →
    ∃ parent < id, t.parentOf? id = some parent ∧ id ∈ t.children parent
  count_allChildren : ∀ id < t.size, id ≠ root → t.allChildren.count id = 1
  sorted_children : ∀ parent, (t.children parent).Pairwise (· < ·)
  lt_size_of_mem_allChildren : ∀ id ∈ t.allChildren, id < t.size

/-- Parents and lists agree in every tree that is reached. -/
theorem Reachable.consistent (ht : Reachable t) : t.Consistent := by
  have h := ht.wellFormed
  refine ⟨h.size_pos, h.parentOf?_root, fun id hid hroot => ?_, fun id hid hroot => ?_,
    ht.sorted_children, fun id hid => (h.mem_allChildren_iff.mp hid).2⟩
  · obtain ⟨parent, hp⟩ := h.exists_parent hid hroot
    exact ⟨parent, h.parent_lt hp, hp, h.mem_children_iff.mpr hp⟩
  · exact List.count_eq_one_of_mem h.nodup_allChildren (h.mem_allChildren_iff.mpr ⟨hroot, hid⟩)

/-- Two nodes `a`, and a node `b` below the first one; the other changes fail. -/
example : (empty.after [.addChild 3 ⟨"", "a"⟩, .addPath ⟨true, [.named ⟨"", "a"⟩ 2]⟩, .hide 7,
    .addPath ⟨true, [.parent]⟩, .addChild 1 ⟨"", "b"⟩]).allChildren = [1, 2, 3] := by
  decide +kernel

end ContentQuery.Tree
