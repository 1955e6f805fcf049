import ContentQuery.Proofs.Outcome
import ContentQuery.Tree.Basic

/-! # Well-formed trees

A tree is well-formed if parents and children agree, a parent comes before its children, and only the
root has none. The empty tree is, a new child keeps a tree so, and so does everything that leaves
parents and children alone; hence every tree that is reached by changes is well-formed.
-/

namespace ContentQuery.Tree

open Naming

/-- The parent that a node is stored with. -/
def parentOf? (t : Tree) (id : NodeId) : Option NodeId := t.nodes[id]?.bind Node.parent

/-- Parents and children agree, and parents come first. -/
structure WellFormed (t : Tree) : Prop where
  size_pos : 0 < t.size
  parentOf?_eq_none_iff : ∀ id : ℕ, t.parentOf? id = none ↔ id = 0 ∨ t.size ≤ id
  parent_lt : ∀ {id parent : ℕ}, t.parentOf? id = some parent → parent < id
  mem_children_iff : ∀ {id parent : ℕ}, id ∈ t.children parent ↔ t.parentOf? id = some parent
  nodup_children : ∀ parent, (t.children parent).Nodup

variable {t t' : Tree}

@[simp] theorem node_eq_ok_iff {id : NodeId} {node : Node} :
    t.node id = .ok node ↔ t.nodes[id]? = some node := by
  unfold Tree.node
  cases t.nodes[id]? <;> simp

theorem lt_size_iff {id : NodeId} : id < t.size ↔ ∃ node, t.nodes[id]? = some node := by
  simp [size, Array.getElem?_eq_some_iff]

theorem parentOf?_of_node {id : NodeId} {node : Node} (hnode : t.nodes[id]? = some node) :
    t.parentOf? id = node.parent := by
  simp [parentOf?, hnode]

theorem children_of_node {id : NodeId} {node : Node} (hnode : t.nodes[id]? = some node) :
    t.children id = node.children := by
  simp [children, hnode]

theorem hasName_of_node {id : NodeId} {node : Node} (hnode : t.nodes[id]? = some node)
    (name : Name) : t.hasName name id = (node.name == name) := by
  simp [hasName, hnode]

namespace WellFormed

variable (h : t.WellFormed)
include h

theorem lt_size_of_parentOf? {id parent : NodeId} (hp : t.parentOf? id = some parent) :
    id < t.size := by
  by_contra hid
  rw [(h.parentOf?_eq_none_iff id).mpr (.inr (Nat.le_of_not_lt hid))] at hp
  cases hp

theorem parent_lt_size {id parent : NodeId} (hp : t.parentOf? id = some parent) :
    parent < t.size :=
  (h.parent_lt hp).trans (h.lt_size_of_parentOf? hp)

/-- Every node but the root has a parent. -/
theorem exists_parent {id : NodeId} (hid : id < t.size) (hroot : id ≠ 0) :
    ∃ parent, t.parentOf? id = some parent := by
  rw [← Option.ne_none_iff_exists', Ne, h.parentOf?_eq_none_iff, not_or, Nat.not_le]
  exact ⟨hroot, hid⟩

theorem parentOf?_root : t.parentOf? root = none := (h.parentOf?_eq_none_iff root).mpr (.inl rfl)

/-- The children that a node lists are nodes. -/
theorem forall_children_lt {id : NodeId} {node : Node} (hnode : t.nodes[id]? = some node) :
    ∀ child ∈ node.children, child < t.size := by
  intro child hchild
  rw [← children_of_node hnode, h.mem_children_iff] at hchild
  exact h.lt_size_of_parentOf? hchild

/-- A node has fewer children than the tree has nodes. -/
theorem length_children_le (parent : NodeId) : (t.children parent).length ≤ t.size := by
  have hsub : t.children parent ⊆ List.range t.size := fun id hid =>
    List.mem_range.mpr (h.lt_size_of_parentOf? (h.mem_children_iff.mp hid))
  simpa using (h.nodup_children parent).length_le_of_subset hsub

end WellFormed

/-- The root alone is well formed. -/
theorem wellFormed_empty : WellFormed empty where
  size_pos := Nat.one_pos
  parentOf?_eq_none_iff id := by
    cases id with
    | zero => simp [parentOf?, empty, Node.fresh]
    | succ n => simp [parentOf?, empty, size]
  parent_lt {id p} hp := by
    cases id with
    | zero => simp [parentOf?, empty, Node.fresh] at hp
    | succ n => simp [parentOf?, empty] at hp
  mem_children_iff {id p} := by
    cases id <;> cases p <;> simp [parentOf?, children, empty, Node.fresh]
  nodup_children p := by
    cases p <;> simp [children, empty, Node.fresh]

/-! ## New children -/

theorem size_pushChild (parent : NodeId) (name : Name) :
    (t.pushChild parent name).size = t.size + 1 := by
  simp [pushChild, size]

/-- A new child has its parent, and no other node gets another one. -/
theorem parentOf?_pushChild (parent : ℕ) (name : Name) (id : ℕ) :
    (t.pushChild parent name).parentOf? id =
      if id = t.size then some parent else t.parentOf? id := by
  by_cases hid : id = t.size
  · rw [if_pos hid, hid, parentOf?, pushChild, Array.getElem?_push, if_pos (by simp [size])]
    rfl
  · have hid' : id ≠ t.nodes.size := hid
    rw [if_neg hid]
    simp only [parentOf?, pushChild, Array.getElem?_push, Array.size_modify, if_neg hid',
      Array.getElem?_modify]
    split <;> cases t.nodes[id]? <;> rfl

/-- Its parent lists it last, and no other list changes. -/
theorem children_pushChild {parent : ℕ} (hparent : parent < t.size) (name : Name) (id : ℕ) :
    (t.pushChild parent name).children id =
      if id = parent then t.children id ++ [t.size] else t.children id := by
  by_cases hid : id = t.size
  · have hnone : t.nodes[t.size]? = none := Array.getElem?_eq_none (Nat.le_refl _)
    rw [if_neg (hid ▸ Nat.ne_of_gt hparent), hid, children, pushChild, Array.getElem?_push,
      if_pos (by simp [size]), children, hnone]
    rfl
  · have hid' : id ≠ t.nodes.size := hid
    simp only [children, pushChild, Array.getElem?_push, Array.size_modify, if_neg hid',
      Array.getElem?_modify]
    by_cases hp : id = parent
    · subst hp
      obtain ⟨node, hnode⟩ := lt_size_iff.mp hparent
      simp [hnode, size]
    · rw [if_neg (Ne.symm hp), if_neg hp]

/-- A tree stays well formed with a new child of one of its nodes. -/
theorem WellFormed.pushChild (h : t.WellFormed) {parent : ℕ} (hparent : parent < t.size)
    (name : Name) : (t.pushChild parent name).WellFormed where
  size_pos := by
    rw [size_pushChild]
    exact Nat.lt_succ_of_lt h.size_pos
  parentOf?_eq_none_iff id := by
    have hpos := h.size_pos
    rw [parentOf?_pushChild, size_pushChild]
    split
    · next hid =>
      simp only [reduceCtorEq, false_iff]
      omega
    · next hid =>
      rw [h.parentOf?_eq_none_iff]
      omega
  parent_lt {id p} hp := by
    rw [parentOf?_pushChild] at hp
    split at hp
    · cases hp
      omega
    · exact h.parent_lt hp
  mem_children_iff {id p} := by
    have hnew : t.size ∉ t.children p := fun hmem =>
      Nat.lt_irrefl _ (h.lt_size_of_parentOf? (h.mem_children_iff.mp hmem))
    rw [children_pushChild hparent, parentOf?_pushChild]
    -- the new node has the new parent, the others keep theirs
    by_cases hid : id = t.size
    · subst hid
      rw [if_pos rfl]
      by_cases hp : p = parent
      · simp [hp]
      · simp [hp, hnew, Ne.symm hp]
    · rw [if_neg hid, ← h.mem_children_iff]
      split <;> simp [hid]
  nodup_children p := by
    have hnew : t.size ∉ t.children p := fun hmem =>
      Nat.lt_irrefl _ (h.lt_size_of_parentOf? (h.mem_children_iff.mp hmem))
    rw [children_pushChild hparent]
    split
    · exact (h.nodup_children p).append (List.nodup_singleton _) (by simpa using hnew)
    · exact h.nodup_children p

theorem size_pushChildren (parent : NodeId) (name : Name) (n : ℕ) :
    (t.pushChildren parent name n).size = t.size + n := by
  induction n generalizing t with
  | zero => rfl
  | succ n ih => rw [pushChildren, ih, size_pushChild, Nat.add_assoc, Nat.add_comm 1]

theorem WellFormed.pushChildren (h : t.WellFormed) {parent : NodeId} (hparent : parent < t.size)
    (name : Name) (n : ℕ) : (t.pushChildren parent name n).WellFormed := by
  induction n generalizing t with
  | zero => exact h
  | succ n ih =>
    refine ih (h.pushChild hparent name) ?_
    rw [size_pushChild]
    exact Nat.lt_succ_of_lt hparent

/-! ## Paths of new children -/

/-- The namesakes are the children with the name. -/
theorem mem_namesakes_iff {parent id : NodeId} {name : Name} :
    id ∈ t.namesakes parent name ↔ id ∈ t.children parent ∧ t.hasName name id = true :=
  List.mem_filter

/-- A child that is found is one. -/
theorem mem_children_of_findChild? {parent child : NodeId} {name : Name} {index : UInt32}
    (hfind : t.findChild? parent name index = some child) : child ∈ t.children parent :=
  (mem_namesakes_iff.mp (List.mem_of_getElem? hfind)).1

/-- Nodes that are made sure of leave the tree well-formed and are in it. -/
theorem WellFormed.ensureChild (h : t.WellFormed) {parent : NodeId} (hparent : parent < t.size)
    (name : Name) (index : UInt32) :
    (t.ensureChild parent name index).1.WellFormed ∧
      (t.ensureChild parent name index).2 < (t.ensureChild parent name index).1.size := by
  unfold Tree.ensureChild
  split
  · next child hfind =>
    exact ⟨h, h.lt_size_of_parentOf? (h.mem_children_iff.mp (mem_children_of_findChild? hfind))⟩
  · next hfind =>
    -- the child is the last of those that are added, of which there is one at least
    refine ⟨h.pushChildren hparent name _, ?_⟩
    have hmissing : (t.namesakes parent name).length < max index.toNat 1 := by
      have hlength := List.getElem?_eq_none_iff.mp hfind
      omega
    have hlast : ∀ n : ℕ, n ≠ 0 → t.size + n - 1 < t.size + n := by omega
    rw [size_pushChildren]
    exact hlast _ (by omega)

/-- Ensuring steps keeps a tree well formed and ends at one of its nodes. -/
theorem WellFormed.ensureSteps (h : t.WellFormed) {start : NodeId} (hstart : start < t.size)
    (steps : List Step) :
    (t.ensureSteps start steps).1.WellFormed ∧
      (t.ensureSteps start steps).2 < (t.ensureSteps start steps).1.size := by
  induction steps generalizing t start with
  | nil => exact ⟨h, hstart⟩
  | cons step steps ih =>
    cases step with
    | current | parent => exact ih h hstart
    | named name index =>
      obtain ⟨hchild, hlt⟩ := h.ensureChild hstart name index
      exact ih hchild hlt

/-! ## Changes of a node -/

/-- A change that leaves parent and children alone. -/
structure KeepsPlace (change : Node → Node) : Prop where
  parent : ∀ node, (change node).parent = node.parent
  children : ∀ node, (change node).children = node.children

namespace KeepsPlace

variable {change : Node → Node} (hchange : KeepsPlace change)
include hchange

theorem parentOf?_modify (id n : NodeId) :
    (⟨t.nodes.modify id change⟩ : Tree).parentOf? n = t.parentOf? n := by
  simp only [parentOf?, Array.getElem?_modify]
  split <;> cases t.nodes[n]? <;> simp [hchange.parent]

theorem children_modify (id n : NodeId) :
    (⟨t.nodes.modify id change⟩ : Tree).children n = t.children n := by
  simp only [Tree.children, Array.getElem?_modify]
  split <;> cases t.nodes[n]? <;> simp [hchange.children]

end KeepsPlace

/-- A change that leaves every node in its place keeps a tree well formed. -/
theorem WellFormed.of_update (h : t.WellFormed) {id : NodeId} {change : Node → Node}
    (hupdate : t.update id change = .ok t') (hchange : KeepsPlace change) : t'.WellFormed := by
  simp only [Tree.update, bind_eq_ok_iff, pure_eq_ok_iff] at hupdate
  obtain ⟨_, -, rfl⟩ := hupdate
  have hsize : (⟨t.nodes.modify id change⟩ : Tree).size = t.size := Array.size_modify
  refine ⟨?_, fun n => ?_, fun hp => ?_, ?_, fun n => ?_⟩
  · rw [hsize]
    exact h.size_pos
  · rw [hchange.parentOf?_modify, hsize]
    exact h.parentOf?_eq_none_iff n
  · rw [hchange.parentOf?_modify] at hp
    exact h.parent_lt hp
  · intro n p
    rw [hchange.parentOf?_modify, hchange.children_modify]
    exact h.mem_children_iff
  · rw [hchange.children_modify]
    exact h.nodup_children n

/-! ## Reached trees -/

/-- A tree that is reached from the empty one by changes. -/
inductive Reachable : Tree → Prop
  | empty : Reachable empty
  | addChild {t t' : Tree} {parent child : NodeId} {name : Name} (h : Reachable t)
      (hadd : t.addChild parent name = .ok (t', child)) : Reachable t'
  | addPath {t t' : Tree} {path : Path} {id : NodeId} (h : Reachable t)
      (hadd : t.addPath path = .ok (t', id)) : Reachable t'
  | setProperty {t t' : Tree} {id : NodeId} {name : Name} {values : List Value} (h : Reachable t)
      (hset : t.setProperty id name values = .ok t') : Reachable t'
  | hide {t t' : Tree} {id : NodeId} (h : Reachable t) (hhide : t.hide id = .ok t') : Reachable t'

/-- Every tree that is reached is well-formed. -/
theorem Reachable.wellFormed (h : Reachable t) : t.WellFormed := by
  -- one case for each change that succeeds
  induction h with
  | empty => exact wellFormed_empty
  | @addChild t t' parent child name _ hadd ih =>
    simp only [Tree.addChild, bind_eq_ok_iff, pure_eq_ok_iff, node_eq_ok_iff] at hadd
    obtain ⟨node, hnode, heq⟩ := hadd
    cases heq
    exact ih.pushChild (lt_size_iff.mpr ⟨node, hnode⟩) name
  | @addPath t t' path id _ hadd ih =>
    unfold Tree.addPath at hadd
    split at hadd
    · next normal _ =>
      have ht : (t.ensureSteps root normal.steps).1 = t' := congrArg Prod.fst (Except.ok.inj hadd)
      rw [← ht]
      exact (ih.ensureSteps ih.size_pos _).1
    · cases hadd
  | setProperty _ hset ih => exact ih.of_update hset ⟨fun _ => rfl, fun _ => rfl⟩
  | hide _ hhide ih => exact ih.of_update hhide ⟨fun _ => rfl, fun _ => rfl⟩

end ContentQuery.Tree
