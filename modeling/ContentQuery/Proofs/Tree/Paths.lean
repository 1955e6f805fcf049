import ContentQuery.Proofs.Naming.NormalForm
import ContentQuery.Proofs.Naming.PathText
import ContentQuery.Proofs.Tree.WellFormed
import ContentQuery.Tree.Navigation

/-! # Paths and nodes

The path of a node is that of its parent and one more step, by which the parent finds the node
again; so the path leads back to the node, and two nodes with one path are one node. Conversely a
path that leads to a node is, steps that stay and climb aside, the path of that node.
-/

namespace ContentQuery

open Naming

/-- The step with its index counted from one. -/
def Naming.Step.countedFromOne : Step → Step
  | .named name index => .child name index
  | step => step

/-- The path with all indexes counted from one. -/
def Naming.Path.countedFromOne (p : Path) : Path := ⟨p.absolute, p.steps.map Step.countedFromOne⟩

namespace Tree

variable {t : Tree}

/-! ## Lineages -/

theorem lineage_of_parentOf?_eq_none {id : NodeId} (hp : t.parentOf? id = none) :
    t.lineage id = [id] := by
  rw [lineage, show t.nodes[id]?.bind Node.parent = none from hp]

/-- The lineage of a node is the node in front of that of its parent. -/
theorem WellFormed.lineage_of_parentOf? (h : t.WellFormed) {id parent : NodeId}
    (hp : t.parentOf? id = some parent) : t.lineage id = id :: t.lineage parent := by
  rw [lineage, show t.nodes[id]?.bind Node.parent = some parent from hp]
  exact if_pos (h.parent_lt hp)

theorem lineage_ne_nil (id : NodeId) : t.lineage id ≠ [] := by
  rw [lineage]
  split
  · split <;> simp
  · simp

/-- The steps from the root to a node. -/
def stepsTo (t : Tree) (id : NodeId) : List Step := (t.lineage id).dropLast.reverse.map t.stepTo

theorem WellFormed.stepsTo_root (h : t.WellFormed) : t.stepsTo root = [] := by
  rw [stepsTo, lineage_of_parentOf?_eq_none h.parentOf?_root]
  rfl

/-- The steps to a node are those to its parent and one more. -/
theorem WellFormed.stepsTo_of_parentOf? (h : t.WellFormed) {id parent : NodeId}
    (hp : t.parentOf? id = some parent) : t.stepsTo id = t.stepsTo parent ++ [t.stepTo id] := by
  rw [stepsTo, h.lineage_of_parentOf? hp, List.dropLast_cons_of_ne_nil (lineage_ne_nil parent)]
  simp [stepsTo]

/-- Every node of the tree has a path, and it is absolute. -/
theorem pathOf_eq_ok_iff {id : NodeId} {p : Path} :
    t.pathOf id = .ok p ↔ id < t.size ∧ p = ⟨true, t.stepsTo id⟩ := by
  simp only [pathOf, bind_eq_ok_iff, pure_eq_ok_iff, node_eq_ok_iff, lt_size_iff]
  constructor
  · rintro ⟨node, hnode, rfl⟩
    exact ⟨⟨node, hnode⟩, rfl⟩
  · rintro ⟨⟨node, hnode⟩, rfl⟩
    exact ⟨node, hnode, rfl⟩

/-! ## Siblings -/

/-- The index of a node counts the namesakes up to it. -/
theorem siblingIndex_of_parent {id parent : NodeId} {node : Node} (hnode : t.nodes[id]? = some node)
    (hp : node.parent = some parent) : t.siblingIndex id =
      UInt32.ofNat (((t.namesakes parent node.name).idxOf? id).getD 0) + 1 := by
  obtain ⟨name, _, children, properties, hidden⟩ := node
  cases hp
  simp only [siblingIndex, hnode]

theorem stepTo_eq {id : NodeId} {node : Node} (hnode : t.nodes[id]? = some node) :
    t.stepTo id = .child node.name (t.siblingIndex id) := by
  simp [stepTo, hnode]

/-- No namesake is listed twice, so each has one index. -/
theorem WellFormed.nodup_namesakes (h : t.WellFormed) (parent : NodeId) (name : Name) :
    (t.namesakes parent name).Nodup :=
  (h.nodup_children parent).filter _

/-- The index behind the place of a child counts from one, if there are not too many. -/
theorem toNat_place_add_one {k : ℕ} (hk : k + 1 < 2 ^ 32) : (UInt32.ofNat k + 1).toNat = k + 1 := by
  rw [UInt32.toNat_add, UInt32.toNat_ofNat']
  have hone : (1 : UInt32).toNat = 1 := rfl
  omega

/-- The index a child is found by, counted from one, is the one behind its place. -/
theorem max_one_eq_place {index : UInt32} {k : ℕ} (hk : k = index.toNat - 1) :
    UInt32.ofNat k + 1 = max index 1 := by
  have hlt := index.toNat_lt
  have hone : (1 : UInt32).toNat = 1 := rfl
  show _ = if index ≤ 1 then 1 else index
  apply UInt32.toNat_inj.mp
  rw [UInt32.toNat_add, UInt32.toNat_ofNat', hone]
  split
  · next hle =>
    rw [UInt32.le_iff_toNat_le, hone] at hle
    rw [hone]
    omega
  · next hle =>
    rw [UInt32.le_iff_toNat_le, hone] at hle
    omega

/-- An entry of a list without repetitions is found at its place. -/
theorem idxOf?_of_getElem? {ids : List NodeId} (hnodup : ids.Nodup) {k : ℕ} {id : NodeId}
    (hk : ids[k]? = some id) : ids.idxOf? id = some k := by
  obtain ⟨hlt, hget⟩ := List.getElem?_eq_some_iff.mp hk
  refine List.idxOf?_eq_some_iff.mpr ⟨hlt, hget, fun j hj heq => ?_⟩
  have hjk := (hnodup.getElem_inj_iff).mp (heq.trans hget.symm)
  omega

/-- A node that is stored with a parent. -/
theorem exists_node_of_parentOf? {id parent : NodeId} (hp : t.parentOf? id = some parent) :
    ∃ node, t.nodes[id]? = some node ∧ node.parent = some parent :=
  Option.bind_eq_some_iff.mp hp

/-- A child that is found is stored with the parent and the name it was found by. -/
theorem WellFormed.exists_node_of_findChild? (h : t.WellFormed) {parent child : NodeId} {name : Name}
    {index : UInt32} (hfind : t.findChild? parent name index = some child) :
    ∃ node, t.nodes[child]? = some node ∧ node.parent = some parent ∧ node.name = name := by
  obtain ⟨node, hnode, hparent⟩ :=
    exists_node_of_parentOf? (h.mem_children_iff.mp (mem_children_of_findChild? hfind))
  have hnamesake := (mem_namesakes_iff.mp (List.mem_of_getElem? hfind)).2
  rw [hasName_of_node hnode, beq_iff_eq] at hnamesake
  exact ⟨node, hnode, hparent, hnamesake⟩

/-- The index of a child that is found is the one it was found by, counted from one. -/
theorem WellFormed.siblingIndex_of_findChild? (h : t.WellFormed) {parent child : NodeId} {name : Name}
    {index : UInt32} (hfind : t.findChild? parent name index = some child) :
    t.siblingIndex child = max index 1 := by
  obtain ⟨node, hnode, hparent, rfl⟩ := h.exists_node_of_findChild? hfind
  have hplace : (t.namesakes parent node.name).idxOf? child = some (index.toNat - 1) :=
    idxOf?_of_getElem? (h.nodup_namesakes parent node.name) hfind
  rw [siblingIndex_of_parent hnode hparent, hplace, Option.getD_some, max_one_eq_place rfl]

/-- The step to a child that is found is the one it was found by, counted from one. -/
theorem WellFormed.stepTo_of_findChild? (h : t.WellFormed) {parent child : NodeId} {name : Name}
    {index : UInt32} (hfind : t.findChild? parent name index = some child) :
    t.parentOf? child = some parent ∧ t.stepTo child = .child name index := by
  obtain ⟨node, hnode, -, rfl⟩ := h.exists_node_of_findChild? hfind
  refine ⟨h.mem_children_iff.mp (mem_children_of_findChild? hfind), ?_⟩
  rw [stepTo_eq hnode, h.siblingIndex_of_findChild? hfind]
  exact Step.child_of_one_le node.name (Step.one_le_max index)

/-- A parent finds a child again by the step to it. -/
theorem WellFormed.findChild?_of_parentOf? (h : t.WellFormed)
    (hcount : ∀ id, (t.children id).length < 2 ^ 32) {id parent : NodeId}
    (hp : t.parentOf? id = some parent) :
    ∃ name index, t.stepTo id = .named name index ∧ t.findChild? parent name index = some id := by
  obtain ⟨node, hnode, hparent⟩ := exists_node_of_parentOf? hp
  have hmem : id ∈ t.namesakes parent node.name :=
    mem_namesakes_iff.mpr ⟨h.mem_children_iff.mpr hp, by simp [hasName, hnode]⟩
  obtain ⟨k, hk⟩ := Option.isSome_iff_exists.mp (List.isSome_idxOf?.mpr hmem)
  obtain ⟨hlt, hget, -⟩ := List.idxOf?_eq_some_iff.mp hk
  -- the index is one more than the place, and does not overflow
  have hbound : k + 1 < 2 ^ 32 := by
    have hle : (t.namesakes parent node.name).length ≤ (t.children parent).length :=
      List.length_filter_le ..
    have hchildren := hcount parent
    omega
  have hindex : (t.siblingIndex id).toNat = k + 1 := by
    rw [siblingIndex_of_parent hnode hparent, hk, Option.getD_some, toNat_place_add_one hbound]
  refine ⟨node.name, t.siblingIndex id, ?_, ?_⟩
  · rw [stepTo_eq hnode]
    refine Step.child_of_one_le _ (UInt32.le_iff_toNat_le.mpr ?_)
    rw [hindex]
    exact Nat.le_add_left 1 k
  · rw [findChild?, hindex, Nat.add_sub_cancel]
    exact List.getElem?_eq_some_iff.mpr ⟨hlt, hget⟩

/-! ## Steps down -/

/-- A walk can be cut anywhere. -/
theorem descend?_append (start : NodeId) (steps more : List Step) :
    t.descend? start (steps ++ more) =
      (t.descend? start steps).bind fun id => t.descend? id more := by
  induction steps generalizing start with
  | nil => rfl
  | cons step steps ih =>
    cases step with
    | current | parent => rfl
    | named name index =>
      simp only [List.cons_append, descend?]
      split
      · split
        · rfl
        · exact ih _
      · rfl

/-- Steps that lead down are, counted from one, the last ones to the node they lead to. -/
theorem WellFormed.stepsTo_of_descend? (h : t.WellFormed) {start id : NodeId} {steps : List Step}
    (hdescend : t.descend? start steps = some id) (hstart : start < t.size) :
    id < t.size ∧ t.stepsTo id = t.stepsTo start ++ steps.map Step.countedFromOne := by
  -- each step of the walk is the last one of the path of the node it leads to
  induction steps generalizing start with
  | nil =>
    cases hdescend
    exact ⟨hstart, by simp⟩
  | cons step steps ih =>
    cases step with
    | current | parent => cases hdescend
    | named name index =>
      rw [descend?] at hdescend
      split at hdescend
      · next child hfind =>
        split at hdescend
        · cases hdescend
        · obtain ⟨hp, hstep⟩ := h.stepTo_of_findChild? hfind
          obtain ⟨hid, hsteps⟩ := ih hdescend (h.lt_size_of_parentOf? hp)
          refine ⟨hid, ?_⟩
          rw [hsteps, h.stepsTo_of_parentOf? hp, hstep, List.append_assoc]
          rfl
      · cases hdescend

/-- The steps to a node lead down to it where the whole lineage shows. -/
theorem WellFormed.descend?_stepsTo (h : t.WellFormed)
    (hcount : ∀ id, (t.children id).length < 2 ^ 32) {id : NodeId} (hid : id < t.size)
    (hshown : ∀ a ∈ t.lineage id, t.isHidden a = false) :
    t.descend? root (t.stepsTo id) = some id := by
  -- up the lineage, parents having smaller numbers
  induction id using Nat.strong_induction_on with
  | _ id ih =>
    by_cases hroot : id = 0
    · subst hroot
      exact congrArg (t.descend? root) h.stepsTo_root
    · obtain ⟨parent, hp⟩ := h.exists_parent hid hroot
      obtain ⟨name, index, hstep, hfind⟩ := h.findChild?_of_parentOf? hcount hp
      rw [h.lineage_of_parentOf? hp, List.forall_mem_cons] at hshown
      rw [h.stepsTo_of_parentOf? hp, descend?_append,
        ih parent (h.parent_lt hp) (h.parent_lt_size hp) hshown.2, hstep]
      simp [descend?, hfind, hshown.1]

/-- The steps to a node tell it from all others. -/
theorem WellFormed.eq_of_stepsTo_eq (h : t.WellFormed)
    (hcount : ∀ id, (t.children id).length < 2 ^ 32) {m n : NodeId} (hm : m < t.size)
    (hn : n < t.size) (hsteps : t.stepsTo m = t.stepsTo n) : m = n := by
  -- up both lineages at once: without the last steps, the parents' steps are left
  induction m using Nat.strong_induction_on generalizing n with
  | _ m ih =>
    by_cases hm0 : m = 0 <;> by_cases hn0 : n = 0
    · rw [hm0, hn0]
    · obtain ⟨parent, hp⟩ := h.exists_parent hn hn0
      have hroot : t.stepsTo m = [] := hm0 ▸ h.stepsTo_root
      simp [hroot, h.stepsTo_of_parentOf? hp] at hsteps
    · obtain ⟨parent, hp⟩ := h.exists_parent hm hm0
      have hroot : t.stepsTo n = [] := hn0 ▸ h.stepsTo_root
      simp [hroot, h.stepsTo_of_parentOf? hp] at hsteps
    · obtain ⟨p, hp⟩ := h.exists_parent hm hm0
      obtain ⟨q, hq⟩ := h.exists_parent hn hn0
      rw [h.stepsTo_of_parentOf? hp, h.stepsTo_of_parentOf? hq] at hsteps
      obtain ⟨hparents, hlast⟩ := List.append_inj' hsteps rfl
      obtain rfl := ih p (h.parent_lt hp) (h.parent_lt_size hp) (h.parent_lt_size hq) hparents
      -- one parent finds only one child by one step
      obtain ⟨name, index, hstep, hfind⟩ := h.findChild?_of_parentOf? hcount hp
      obtain ⟨name', index', hstep', hfind'⟩ := h.findChild?_of_parentOf? hcount hq
      have hstepEq := hstep.symm.trans ((List.cons.inj hlast).1.trans hstep')
      cases hstepEq
      exact Option.some.inj (hfind.symm.trans hfind')

/-! ## Paths -/

/-- The path of a node has names only. -/
theorem descents_stepsTo (id : NodeId) : Descents (t.stepsTo id) := by
  intro step hstep
  obtain ⟨a, -, rfl⟩ := List.mem_map.mp hstep
  exact ⟨_, _, rfl⟩

theorem normalize?_stepsTo (id : NodeId) :
    (⟨true, t.stepsTo id⟩ : Naming.Path).normalize? = some ⟨true, t.stepsTo id⟩ := by
  simp [Path.normalize?, Path.normalizeOnto?_of_descents (descents_stepsTo id)]

/-- Normalization does not make a path relative. -/
theorem absolute_of_normalize? {p q : Path} (h : p.toAbsolute.normalize? = some q) :
    q.absolute = true := by
  rw [Path.absolute_of_normalize?_eq_some h, Path.toAbsolute]
  split
  · assumption
  · next hrelative => simp [Path.join, hrelative, Path.root]

/-- A normalized absolute path is its own normal form. -/
theorem normalize?_of_normalize? {p q : Path} (h : p.toAbsolute.normalize? = some q) :
    q.toAbsolute.normalize? = some q := by
  rw [Path.toAbsolute, if_pos (absolute_of_normalize? h)]
  exact Path.normalize?_idempotent h

/-- A path and its normal form lead to the same node. -/
theorem resolve?_of_normalize? {p q : Path} (h : p.toAbsolute.normalize? = some q) :
    t.resolve? q = t.resolve? p := by
  rw [resolve?, resolve?, h, normalize?_of_normalize? h]

/-- The node a path leads to is in the tree. -/
theorem WellFormed.lt_size_of_resolve? (h : t.WellFormed) {p : Path} {id : NodeId}
    (hresolve : t.resolve? p = some id) : id < t.size := by
  obtain ⟨q, -, hdescend⟩ := Option.bind_eq_some_iff.mp hresolve
  exact (h.stepsTo_of_descend? hdescend h.size_pos).1

/-- **Paths and nodes are inverse.** In every tree that is reached by changes, with fewer than 2³²
children to a node: a node whose lineage shows is where its path leads; a path that leads to a node
is, made absolute and normalized and its indexes counted from one, the path of that node; and two
nodes with one path are one node. -/
theorem pathOf_resolve?_inverse (ht : Reachable t)
    (hcount : ∀ id, (t.children id).length < 2 ^ 32) :
    (∀ id, id < t.size → (∀ a ∈ t.lineage id, t.isHidden a = false) →
        ∃ p, t.pathOf id = .ok p ∧ t.resolve? p = some id) ∧
      (∀ p id, t.resolve? p = some id →
        ∃ q, p.toAbsolute.normalize? = some q ∧ t.pathOf id = .ok q.countedFromOne) ∧
      ∀ m n p, t.pathOf m = .ok p → t.pathOf n = .ok p → m = n := by
  have h := ht.wellFormed
  refine ⟨fun id hid hshown => ?_, fun p id hresolve => ?_, fun m n p hm hn => ?_⟩
  · refine ⟨⟨true, t.stepsTo id⟩, pathOf_eq_ok_iff.mpr ⟨hid, rfl⟩, ?_⟩
    have habsolute : (⟨true, t.stepsTo id⟩ : Naming.Path).toAbsolute = ⟨true, t.stepsTo id⟩ := rfl
    rw [resolve?, habsolute, normalize?_stepsTo]
    exact h.descend?_stepsTo hcount hid hshown
  -- the walk down the normal form leaves its steps behind, with indexes counted from one
  · obtain ⟨q, hq, hdescend⟩ := Option.bind_eq_some_iff.mp hresolve
    obtain ⟨hid, hsteps⟩ := h.stepsTo_of_descend? hdescend h.size_pos
    refine ⟨q, hq, pathOf_eq_ok_iff.mpr ⟨hid, ?_⟩⟩
    rw [hsteps, h.stepsTo_root, Path.countedFromOne, absolute_of_normalize? hq]
    rfl
  · obtain ⟨hmlt, rfl⟩ := pathOf_eq_ok_iff.mp hm
    obtain ⟨hnlt, hpath⟩ := pathOf_eq_ok_iff.mp hn
    exact h.eq_of_stepsTo_eq hcount hmlt hnlt (congrArg Path.steps hpath)

/-- Three namesakes with another child among them, the second one hidden. -/
def namesakeTree : Tree where
  nodes := #[
    ⟨.empty, none, [1, 2, 3, 4], ⟨[]⟩, false⟩, ⟨⟨"", "a"⟩, some 0, [], ⟨[]⟩, false⟩,
    ⟨⟨"", "a"⟩, some 0, [], ⟨[]⟩, true⟩, ⟨⟨"", "b"⟩, some 0, [], ⟨[]⟩, false⟩,
    ⟨⟨"", "a"⟩, some 0, [], ⟨[]⟩, false⟩]

theorem reachable_namesakeTree : Reachable namesakeTree := by
  have hpath := Reachable.empty.addPath
    (show empty.addPath ⟨true, [.named ⟨"", "a"⟩ 2]⟩ = .ok (_, 2) from rfl)
  have hb := hpath.addChild (show Tree.addChild _ 0 ⟨"", "b"⟩ = .ok (_, 3) from rfl)
  have ha := hb.addChild (show Tree.addChild _ 0 ⟨"", "a"⟩ = .ok (_, 4) from rfl)
  exact ha.hide (show Tree.hide _ 2 = .ok namesakeTree from rfl)

theorem pathOf_resolve?_inverse_namesakes :
    Reachable namesakeTree ∧ (∀ id, (namesakeTree.children id).length < 2 ^ 32) ∧
      (∃ p, namesakeTree.pathOf 4 = .ok p ∧ namesakeTree.resolve? p = some 4) ∧
      (let p : Naming.Path := ⟨false, [.named ⟨"", "b"⟩ 1, .parent, .named ⟨"", "a"⟩ 0]⟩
        ∃ q, p.toAbsolute.normalize? = some q ∧ namesakeTree.pathOf 1 = .ok q.countedFromOne) ∧
      namesakeTree.pathOf 2 = .ok ⟨true, [.named ⟨"", "a"⟩ 2]⟩ ∧
      namesakeTree.resolve? ⟨true, [.named ⟨"", "a"⟩ 2]⟩ = none := by
  have hcount : ∀ id, (namesakeTree.children id).length < 2 ^ 32 := fun id =>
    lt_of_le_of_lt (reachable_namesakeTree.wellFormed.length_children_le id) (by decide)
  have hinverse := pathOf_resolve?_inverse reachable_namesakeTree hcount
  exact ⟨reachable_namesakeTree, hcount, hinverse.1 4 (by decide) (by decide +kernel),
    hinverse.2.1 _ 1 (by decide +kernel), by decide +kernel, by decide +kernel⟩

end Tree

end ContentQuery
