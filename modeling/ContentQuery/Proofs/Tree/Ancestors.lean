import ContentQuery.Proofs.Tree.Paths

/-! # Parents and ancestors

The lineage of a node lists the nodes reached from it by steps to the parent, and the lineage of each
of these is the end of it. So an ancestor stands in the lineage, counted from the root, at its own
depth, and to look there is to ask whether it is an ancestor.
-/

namespace ContentQuery.Tree

/-- The second node is stored as the parent of the first one. -/
def IsParent (t : Tree) (id parent : NodeId) : Prop := t.parentOf? id = some parent

/-- The number of steps from the root to a node. -/
def depthOf (t : Tree) (id : NodeId) : ℕ := (t.lineage id).length - 1

variable {t : Tree} {id a parent : NodeId}

theorem exists_node_eq_ok (hid : id < t.size) : ∃ node, t.node id = .ok node := by
  simpa only [node_eq_ok_iff] using lt_size_iff.mp hid

/-- The depth that is asked for is the number of steps up to the root. -/
theorem depth_eq_ok (hid : id < t.size) : t.depth id = .ok (t.depthOf id) := by
  obtain ⟨node, hnode⟩ := exists_node_eq_ok hid
  rw [depth, hnode]
  rfl

/-- The ancestor at a depth stands there in the lineage, counted from the root. -/
theorem ancestorAt_eq_ok (hid : id < t.size) (depth : ℕ) :
    t.ancestorAt id depth = .ok (t.lineage id).reverse[depth]? := by
  obtain ⟨node, hnode⟩ := exists_node_eq_ok hid
  rw [ancestorAt, hnode]
  rfl

/-- A lineage begins with its node. -/
theorem exists_lineage_eq_cons (id : NodeId) : ∃ rest, t.lineage id = id :: rest := by
  rw [lineage]
  split
  · split
    · exact ⟨_, rfl⟩
    · exact ⟨[], rfl⟩
  · exact ⟨[], rfl⟩

theorem length_lineage (id : NodeId) : (t.lineage id).length = t.depthOf id + 1 := by
  obtain ⟨rest, hrest⟩ := t.exists_lineage_eq_cons id
  simp [depthOf, hrest]

theorem mem_lineage_self (id : NodeId) : id ∈ t.lineage id := by
  obtain ⟨rest, hrest⟩ := t.exists_lineage_eq_cons id
  simp [hrest]

/-- A lineage tells its node. -/
theorem eq_of_lineage_eq (h : t.lineage a = t.lineage id) : a = id := by
  obtain ⟨rest, hrest⟩ := t.exists_lineage_eq_cons a
  obtain ⟨rest', hrest'⟩ := t.exists_lineage_eq_cons id
  rw [hrest, hrest'] at h
  exact (List.cons.inj h).1

namespace WellFormed

variable (h : t.WellFormed)
include h

/-- A child is one step deeper than its parent. -/
theorem depthOf_of_parent (hp : t.IsParent id parent) : t.depthOf id = t.depthOf parent + 1 := by
  have hlength := congrArg List.length (h.lineage_of_parentOf? hp)
  rw [List.length_cons, length_lineage, length_lineage] at hlength
  omega

/-- What is in a lineage is the node itself or in the lineage of its parent. -/
theorem mem_lineage_cases (ha : a ∈ t.lineage id) :
    a = id ∨ ∃ parent, t.IsParent id parent ∧ a ∈ t.lineage parent := by
  cases hp : t.parentOf? id with
  | none =>
    rw [lineage_of_parentOf?_eq_none hp] at ha
    exact .inl (List.mem_singleton.mp ha)
  | some parent =>
    rw [h.lineage_of_parentOf? hp, List.mem_cons] at ha
    exact ha.imp_right fun ha => ⟨parent, hp, ha⟩

/-- The lineage of a node in a lineage is the end of it. -/
theorem lineage_suffix (ha : a ∈ t.lineage id) : t.lineage a <:+ t.lineage id := by
  -- up the lineage, parents having smaller numbers
  induction id using Nat.strong_induction_on with
  | _ id ih =>
    obtain rfl | ⟨parent, hp, ha⟩ := h.mem_lineage_cases ha
    · exact List.suffix_refl _
    · rw [h.lineage_of_parentOf? hp]
      exact (ih parent (h.parent_lt hp) ha).trans (List.suffix_cons _ _)

theorem depthOf_le (ha : a ∈ t.lineage id) : t.depthOf a ≤ t.depthOf id := by
  have hlength := (h.lineage_suffix ha).length_le
  rw [length_lineage, length_lineage] at hlength
  omega

/-- Of the nodes in a lineage only the node itself is as deep. -/
theorem eq_of_depthOf_eq (ha : a ∈ t.lineage id) (hdepth : t.depthOf a = t.depthOf id) : a = id :=
  eq_of_lineage_eq <| (h.lineage_suffix ha).eq_of_length <| by
    rw [length_lineage, length_lineage, hdepth]

/-- Looking into a lineage at the depth of a node tells whether the node is in it. -/
theorem getElem?_reverse_lineage_iff :
    (t.lineage id).reverse[t.depthOf a]? = some a ↔ a ∈ t.lineage id := by
  constructor
  · intro hget
    exact List.mem_reverse.mp (List.mem_of_getElem? hget)
  · intro ha
    obtain ⟨front, hfront⟩ := h.lineage_suffix ha
    obtain ⟨rest, hrest⟩ := t.exists_lineage_eq_cons a
    have hdepth : t.depthOf a = rest.reverse.length := by simp [depthOf, hrest]
    rw [← hfront, hrest, List.reverse_append, List.reverse_cons, List.append_assoc, hdepth]
    simp

/-- A lineage holds what is reached by steps to the parent. -/
theorem mem_lineage_iff : a ∈ t.lineage id ↔ Relation.ReflTransGen t.IsParent id a := by
  constructor
  · intro ha
    induction id using Nat.strong_induction_on with
    | _ id ih =>
      obtain rfl | ⟨parent, hp, ha⟩ := h.mem_lineage_cases ha
      · exact .refl
      · exact .head hp (ih parent (h.parent_lt hp) ha)
  · intro hreach
    induction hreach using Relation.ReflTransGen.head_induction_on with
    | refl => exact mem_lineage_self a
    | head hp _ ih =>
      rw [h.lineage_of_parentOf? hp]
      exact List.mem_cons_of_mem _ ih

/-- The parent of a node is the node of its lineage that is one step less deep. -/
theorem isParent_iff : t.IsParent id a ↔ a ∈ t.lineage id ∧ t.depthOf id = t.depthOf a + 1 := by
  constructor
  · intro hp
    rw [h.lineage_of_parentOf? hp]
    exact ⟨List.mem_cons_of_mem _ (mem_lineage_self a), h.depthOf_of_parent hp⟩
  · rintro ⟨ha, hdepth⟩
    obtain rfl | ⟨parent, hp, ha⟩ := h.mem_lineage_cases ha
    · omega
    · have hparent := h.depthOf_of_parent hp
      rwa [h.eq_of_depthOf_eq ha (by omega)]

/-- The proper ancestors of a node are the nodes of its lineage that are less deep. -/
theorem transGen_isParent_iff :
    Relation.TransGen t.IsParent id a ↔ a ∈ t.lineage id ∧ t.depthOf a < t.depthOf id := by
  rw [Relation.TransGen.head'_iff]
  constructor
  · rintro ⟨parent, hp, hreach⟩
    have ha := h.mem_lineage_iff.mpr hreach
    have hle := h.depthOf_le ha
    rw [h.lineage_of_parentOf? hp, h.depthOf_of_parent hp]
    exact ⟨List.mem_cons_of_mem _ ha, by omega⟩
  · rintro ⟨ha, hdepth⟩
    obtain rfl | ⟨parent, hp, ha⟩ := h.mem_lineage_cases ha
    · omega
    · exact ⟨parent, hp, h.mem_lineage_iff.mp ha⟩

end WellFormed

end ContentQuery.Tree
