import ContentQuery.Proofs.Tree.Paths

/-! # Trees that grow

New children are listed behind the old ones. So a child keeps its place among the siblings of its
name, and with it every node keeps its index, its steps and its path, however much is added anywhere
in the tree; and a child that is found by a name and an index is found by them ever after.
-/

namespace ContentQuery.Tree

open Naming

variable {t t' t'' : Tree} {id parent child : NodeId} {name : Name}

/-- Every node of the first tree is in the second one, the same but for more children. -/
def Grows (t t' : Tree) : Prop :=
  ∀ (id : NodeId) (node : Node), t.nodes[id]? = some node →
    ∃ more, t'.nodes[id]? = some { node with children := node.children ++ more }

namespace Grows

theorem refl (t : Tree) : t.Grows t := fun _ _ hnode => ⟨[], by simpa using hnode⟩

theorem trans (h : t.Grows t') (h' : t'.Grows t'') : t.Grows t'' := by
  intro id node hnode
  obtain ⟨more, hnode⟩ := h id node hnode
  obtain ⟨more', hnode⟩ := h' id _ hnode
  exact ⟨more ++ more', by rw [hnode, List.append_assoc]⟩

/-! ## What stays -/

variable (h : t.Grows t')
include h

theorem lt_size (hid : id < t.size) : id < t'.size := by
  obtain ⟨node, hnode⟩ := lt_size_iff.mp hid
  obtain ⟨more, hnode⟩ := h id node hnode
  exact lt_size_iff.mpr ⟨_, hnode⟩

/-- No node gets another parent. -/
theorem parentOf?_eq (hid : id < t.size) : t'.parentOf? id = t.parentOf? id := by
  obtain ⟨node, hnode⟩ := lt_size_iff.mp hid
  obtain ⟨more, hnode'⟩ := h id node hnode
  rw [parentOf?, parentOf?, hnode, hnode']
  rfl

theorem hasName_eq (hid : id < t.size) : t'.hasName name id = t.hasName name id := by
  obtain ⟨node, hnode⟩ := lt_size_iff.mp hid
  obtain ⟨more, hnode'⟩ := h id node hnode
  rw [hasName, hasName, hnode, hnode']
  rfl

/-- The namesakes there were come first. -/
theorem namesakes_prefix (ht : t.WellFormed) (parent : NodeId) (name : Name) :
    t.namesakes parent name <+: t'.namesakes parent name := by
  cases hparent : t.nodes[parent]? with
  | none => simp [namesakes, children, hparent]
  | some node =>
    obtain ⟨more, hparent'⟩ := h parent node hparent
    have hchildren : t.children parent = node.children := by simp [children, hparent]
    have hchildren' : t'.children parent = node.children ++ more := by simp [children, hparent']
    have hnames : ∀ c ∈ node.children, t'.hasName name c = t.hasName name c := by
      intro c hc
      rw [← hchildren, ht.mem_children_iff] at hc
      exact h.hasName_eq (ht.lt_size_of_parentOf? hc)
    rw [namesakes, namesakes, hchildren, hchildren', List.filter_append, List.filter_congr hnames]
    exact List.prefix_append _ _

/-- A child that is found is found again. -/
theorem findChild?_eq (ht : t.WellFormed) {index : UInt32}
    (hfind : t.findChild? parent name index = some child) :
    t'.findChild? parent name index = some child := by
  obtain ⟨hlt, hget⟩ := List.getElem?_eq_some_iff.mp hfind
  rw [findChild?, List.prefix_iff_getElem?.mp (h.namesakes_prefix ht parent name) _ hlt, hget]

/-- New namesakes come last, so the index of a node stays. -/
theorem siblingIndex_eq (ht : t.WellFormed) (hid : id < t.size) :
    t'.siblingIndex id = t.siblingIndex id := by
  obtain ⟨node, hnode⟩ := lt_size_iff.mp hid
  obtain ⟨more, hnode'⟩ := h id node hnode
  cases hp : node.parent with
  | none =>
    obtain ⟨name, _, children, properties, hidden⟩ := node
    cases hp
    rw [siblingIndex, siblingIndex, hnode, hnode']
  | some parent =>
    -- new namesakes stand behind those that were there
    have hmem : id ∈ t.namesakes parent node.name := by
      have hparent : t.parentOf? id = some parent := Option.bind_eq_some_iff.mpr ⟨node, hnode, hp⟩
      exact mem_namesakes_iff.mpr ⟨ht.mem_children_iff.mpr hparent, by simp [hasName, hnode]⟩
    obtain ⟨k, hk⟩ := Option.isSome_iff_exists.mp (List.isSome_idxOf?.mpr hmem)
    have hk' : (t'.namesakes parent node.name).idxOf? id = some k :=
      (h.namesakes_prefix ht parent node.name).findIdx?_eq_some hk
    rw [siblingIndex_of_parent hnode hp, siblingIndex_of_parent hnode' hp, hk, hk']

theorem stepTo_eq (ht : t.WellFormed) (hid : id < t.size) : t'.stepTo id = t.stepTo id := by
  obtain ⟨node, hnode⟩ := lt_size_iff.mp hid
  obtain ⟨more, hnode'⟩ := h id node hnode
  rw [Tree.stepTo_eq hnode, Tree.stepTo_eq hnode', h.siblingIndex_eq ht hid]

/-- Every node keeps its steps. -/
theorem stepsTo_eq (ht : t.WellFormed) (ht' : t'.WellFormed) (hid : id < t.size) :
    t'.stepsTo id = t.stepsTo id := by
  -- up the lineage, parents having smaller numbers
  induction id using Nat.strong_induction_on with
  | _ id ih =>
    have hparent := h.parentOf?_eq hid
    cases hp : t.parentOf? id with
    | none =>
      rw [stepsTo, stepsTo, lineage_of_parentOf?_eq_none hp,
        lineage_of_parentOf?_eq_none (hparent.trans hp)]
      rfl
    | some parent =>
      rw [ht.stepsTo_of_parentOf? hp, ht'.stepsTo_of_parentOf? (hparent.trans hp),
        ih parent (ht.parent_lt hp) (ht.parent_lt_size hp), h.stepTo_eq ht hid]

/-- Every node keeps its path. -/
theorem pathOf_eq (ht : t.WellFormed) (ht' : t'.WellFormed) (hid : id < t.size) :
    t'.pathOf id = t.pathOf id := by
  rw [pathOf_eq_ok_iff.mpr ⟨h.lt_size hid, rfl⟩, pathOf_eq_ok_iff.mpr ⟨hid, rfl⟩,
    h.stepsTo_eq ht ht' hid]

end Grows

/-! ## Growing -/

/-- A new child changes one list of children, at its end. -/
theorem grows_pushChild (parent : NodeId) (name : Name) : t.Grows (t.pushChild parent name) := by
  intro id node hnode
  have hne : id ≠ t.nodes.size := Nat.ne_of_lt (lt_size_iff.mpr ⟨node, hnode⟩)
  simp only [pushChild, Array.getElem?_push, Array.size_modify, if_neg hne, Array.getElem?_modify,
    hnode]
  split
  · exact ⟨[t.nodes.size], rfl⟩
  · exact ⟨[], by simp⟩

theorem grows_pushChildren (parent : NodeId) (name : Name) (n : ℕ) :
    t.Grows (t.pushChildren parent name n) := by
  induction n generalizing t with
  | zero => exact .refl t
  | succ n ih => exact (grows_pushChild parent name).trans ih

theorem grows_ensureChild (parent : NodeId) (name : Name) (index : UInt32) :
    t.Grows (t.ensureChild parent name index).1 := by
  unfold ensureChild
  split
  · exact .refl t
  · exact grows_pushChildren parent name _

/-- Ensuring steps adds nodes and nothing else. -/
theorem grows_ensureSteps (start : NodeId) (steps : List Step) :
    t.Grows (t.ensureSteps start steps).1 := by
  induction steps generalizing t start with
  | nil => exact .refl t
  | cons step steps ih =>
    cases step with
    | current | parent => exact ih start
    | named name index => exact (grows_ensureChild start name index).trans (ih _)

end ContentQuery.Tree
