import ContentQuery.Proofs.Tree.Ancestors
import ContentQuery.Proofs.Tree.Growth
import ContentQuery.Tree.Edit

/-! # Depths, ancestors, paths and names

Depth, ancestors and path of a node are read off its lineage. The lineage of an ancestor is, counted
from the root, the beginning of that of the node, so its depth is its place there, its path is a
beginning of the node's path, and its ancestors are found where the node's are. The last step of the
path bears the name of the node; the root has no step and the empty name, which no change takes from
it. Where there is no node, every answer is that there is none, and a change in place leaves the tree
as it found it.
-/

namespace ContentQuery.Tree

open Naming

variable {t t' : Tree} {id a : NodeId}

/-! ## Changes in place -/

/-- A change under a node may be made before or after another node is put behind all. -/
theorem modify_push {nodes : Array Node} {i : ℕ} (hi : i < nodes.size) (node : Node)
    (change : Node → Node) :
    (nodes.push node).modify i change = (nodes.modify i change).push node := by
  apply Array.ext_getElem?
  intro j
  simp only [Array.getElem?_modify, Array.getElem?_push, Array.size_modify]
  split <;> split <;> simp_all

/-- A child may be put behind all others before its parent lists it. -/
theorem modify_push_fresh {parent : ℕ} (hparent : parent < t.size) (name : Name) :
    (⟨(t.nodes.push (.fresh name (some parent))).modify parent fun node =>
      { node with children := node.children ++ [t.size] }⟩ : Tree) = t.pushChild parent name := by
  rw [modify_push hparent]
  rfl

namespace Edit

/-- What an edit ends with whose change has this outcome. The tree of a failed one is as it was. -/
def ending {α : Type} (t : Tree) :
    Except NavigationError (Tree × α) → EStateM.Result NavigationError Tree α
  | .ok (changed, a) => .ok a changed
  | .error e => .error e t

/-- What follows a requirement is done exactly if there is the node. -/
theorem run_require_bind {α : Type} (id : NodeId) (edit : Edit α) :
    (require id >>= fun _ => edit).run t =
      match t.node id with
      | .ok _ => edit.run t
      | .error e => .error e t := by
  cases h : t.node id <;>
    simp [require, EStateM.run, bind, EStateM.bind, get, getThe, MonadStateOf.get, EStateM.get,
      throw, throwThe, MonadExceptOf.throw, EStateM.throw, pure, EStateM.pure, h]

/-- Adding a child fails in front of the first change, or changes the tree as it should. -/
theorem run_addChild (parent : NodeId) (name : Name) :
    (Edit.addChild parent name).run t = ending t (t.addChild parent name) := by
  rw [Edit.addChild, run_require_bind, Tree.addChild]
  cases hnode : t.node parent with
  | error e => rfl
  | ok node =>
    have hparent : parent < t.size := lt_size_iff.mpr ⟨node, node_eq_ok_iff.mp hnode⟩
    exact congrArg (EStateM.Result.ok t.size) (modify_push_fresh hparent name)

theorem run_setProperty (id : NodeId) (name : Name) (values : List Value) :
    (Edit.setProperty id name values).run t =
      ending t ((t.setProperty id name values).map fun changed => (changed, ())) := by
  rw [Edit.setProperty, run_require_bind, Tree.setProperty, Tree.update]
  cases t.node id <;> rfl

theorem run_hide (id : NodeId) :
    (Edit.hide id).run t = ending t ((t.hide id).map fun changed => (changed, ())) := by
  rw [Edit.hide, run_require_bind, Tree.hide, Tree.update]
  cases t.node id <;> rfl

end Edit

/-! ## Where there is no node -/

/-- Every answer about a node and every change of it is that there is none. The changes in place
leave the tree as it was. -/
structure Lacks (t : Tree) (id : NodeId) : Prop where
  depth : t.depth id = .error (.noNode id)
  ancestorAt : ∀ depth, t.ancestorAt id depth = .error (.noNode id)
  pathOf : t.pathOf id = .error (.noNode id)
  parent : t.parent id = .error (.noNode id)
  nodeName : t.nodeName id = .error (.noNode id)
  nodeNameOfPath : t.nodeNameOfPath id = .error (.noNode id)
  propertyValues : ∀ name, t.propertyValues id name = .error (.noNode id)
  propertyNames : t.propertyNames id = .error (.noNode id)
  addChild : ∀ name, t.addChild id name = .error (.noNode id) ∧
    (Edit.addChild id name).run t = .error (.noNode id) t
  setProperty : ∀ name values, t.setProperty id name values = .error (.noNode id) ∧
    (Edit.setProperty id name values).run t = .error (.noNode id) t
  hide : t.hide id = .error (.noNode id) ∧ (Edit.hide id).run t = .error (.noNode id) t

/-- A number beyond the nodes is refused by itself. -/
theorem node_eq_error (hid : t.size ≤ id) : t.node id = .error (.noNode id) := by
  rw [Tree.node, Array.getElem?_eq_none hid]

theorem lacks_of_size_le (hid : t.size ≤ id) : t.Lacks id := by
  -- each question looks the node up first, and each change does so before it changes anything
  have hnode := node_eq_error hid
  have hdepth : t.depth id = .error (.noNode id) := by rw [Tree.depth, hnode]; rfl
  have hpath : t.pathOf id = .error (.noNode id) := by rw [Tree.pathOf, hnode]; rfl
  have hadd : ∀ name, t.addChild id name = .error (.noNode id) := fun name => by
    rw [Tree.addChild, hnode]; rfl
  have hset : ∀ name values, t.setProperty id name values = .error (.noNode id) :=
    fun name values => by rw [Tree.setProperty, Tree.update, hnode]; rfl
  have hhide : t.hide id = .error (.noNode id) := by rw [Tree.hide, Tree.update, hnode]; rfl
  exact {
    depth := hdepth
    ancestorAt := fun depth => by rw [Tree.ancestorAt, hnode]; rfl
    pathOf := hpath
    parent := by rw [Tree.parent, hdepth]; rfl
    nodeName := by rw [Tree.nodeName, hnode]; rfl
    nodeNameOfPath := by rw [Tree.nodeNameOfPath, hpath]; rfl
    propertyValues := fun name => by rw [Tree.propertyValues, hnode]; rfl
    propertyNames := by rw [Tree.propertyNames, hnode]; rfl
    addChild := fun name => ⟨hadd name, by rw [Edit.run_addChild, hadd]; rfl⟩
    setProperty := fun name values => ⟨hset name values, by rw [Edit.run_setProperty, hset]; rfl⟩
    hide := ⟨hhide, by rw [Edit.run_hide, hhide]; rfl⟩ }

/-! ## Ancestors by depth -/

namespace WellFormed

variable (h : t.WellFormed)
include h

theorem lt_size_of_mem_lineage (hid : id < t.size) (ha : a ∈ t.lineage id) : a < t.size := by
  induction id using Nat.strong_induction_on with
  | _ id ih =>
    obtain rfl | ⟨parent, hp, ha⟩ := h.mem_lineage_cases ha
    · exact hid
    · exact ih parent (h.parent_lt hp) (h.parent_lt_size hp) ha

/-- A node stands in a lineage, counted from the root, at its own depth. -/
theorem depthOf_of_getElem? {d : ℕ} (hget : (t.lineage id).reverse[d]? = some a) :
    t.depthOf a = d := by
  -- up the lineage: the place is the last one or one in the lineage of the parent
  induction id using Nat.strong_induction_on with
  | _ id ih =>
    cases hp : t.parentOf? id with
    | none =>
      have hlineage := lineage_of_parentOf?_eq_none hp
      rw [hlineage, List.reverse_singleton, List.getElem?_singleton] at hget
      split at hget
      · next hd =>
        obtain rfl := Option.some.inj hget
        simp [depthOf, hlineage, hd]
      · cases hget
    | some parent =>
      have hlength := length_lineage (t := t) parent
      rw [h.lineage_of_parentOf? hp, List.reverse_cons] at hget
      by_cases hd : d < (t.lineage parent).length
      · rw [List.getElem?_append_left (by rwa [List.length_reverse])] at hget
        exact ih parent (h.parent_lt hp) hget
      · have hd' : d = (t.lineage parent).reverse.length := by
          obtain ⟨hlt, -⟩ := List.getElem?_eq_some_iff.mp hget
          simp only [List.length_append, List.length_reverse, List.length_singleton] at hlt ⊢
          omega
        subst hd'
        rw [List.getElem?_concat_length] at hget
        obtain rfl := Option.some.inj hget
        rw [h.depthOf_of_parent hp, List.length_reverse, hlength]

/-- A lineage has a node of every depth up to that of the node it begins with. -/
theorem exists_mem_lineage {d : ℕ} (hd : d ≤ t.depthOf id) : ∃ a ∈ t.lineage id, t.depthOf a = d := by
  have hlt : d < (t.lineage id).reverse.length := by
    rw [List.length_reverse, length_lineage]
    omega
  have hget := List.getElem?_eq_getElem hlt
  exact ⟨_, List.mem_reverse.mp (List.mem_of_getElem? hget), h.depthOf_of_getElem? hget⟩

/-- A lineage has one node of a depth. -/
theorem eq_of_mem_lineage {b : NodeId} (ha : a ∈ t.lineage id) (hb : b ∈ t.lineage id)
    (hdepth : t.depthOf a = t.depthOf b) : a = b := by
  have hgeta := h.getElem?_reverse_lineage_iff.mpr ha
  rw [hdepth, h.getElem?_reverse_lineage_iff.mpr hb] at hgeta
  exact (Option.some.inj hgeta).symm

/-- The lineage of an ancestor is, counted from the root, the beginning of the lineage. -/
theorem reverse_lineage_eq_take (ha : a ∈ t.lineage id) :
    (t.lineage a).reverse = (t.lineage id).reverse.take (t.depthOf a + 1) := by
  rw [← length_lineage, ← List.length_reverse]
  exact List.prefix_iff_eq_take.mp (List.reverse_prefix.mpr (h.lineage_suffix ha))

/-- The steps to an ancestor are the first of those to the node. -/
theorem stepsTo_eq_take (ha : a ∈ t.lineage id) :
    t.stepsTo a = (t.stepsTo id).take (t.depthOf a) := by
  have hsteps : ∀ n, t.stepsTo n = ((t.lineage n).reverse.drop 1).map t.stepTo := fun n => by
    rw [stepsTo, ← List.tail_reverse, List.drop_one]
  rw [hsteps, hsteps, h.reverse_lineage_eq_take ha, List.drop_take, Nat.add_sub_cancel,
    List.map_take]

end WellFormed

/-- The path of a node has as many steps as the node is deep. -/
theorem length_stepsTo (id : NodeId) : (t.stepsTo id).length = t.depthOf id := by
  simp [stepsTo, depthOf]

/-- An ancestor is asked for by its depth. Its path is a beginning of the node's path, and its own
ancestors are the node's. -/
theorem WellFormed.exists_ancestorAt (h : t.WellFormed) (hid : id < t.size) {d : ℕ}
    (hd : d ≤ t.depthOf id) :
    ∃ a, t.ancestorAt id d = .ok (some a) ∧ t.pathOf a = .ok ⟨true, (t.stepsTo id).take d⟩ ∧
      ∀ e ≤ d, t.ancestorAt a e = t.ancestorAt id e := by
  obtain ⟨a, ha, hdepth⟩ := h.exists_mem_lineage hd
  have hasize : a < t.size := h.lt_size_of_mem_lineage hid ha
  refine ⟨a, ?_, ?_, fun e he => ?_⟩
  · rw [ancestorAt_eq_ok hid, ← hdepth, h.getElem?_reverse_lineage_iff.mpr ha]
  · rw [pathOf_eq_ok_iff, h.stepsTo_eq_take ha, hdepth]
    exact ⟨hasize, rfl⟩
  · rw [ancestorAt_eq_ok hasize, ancestorAt_eq_ok hid, h.reverse_lineage_eq_take ha,
      List.getElem?_take_of_lt (by omega)]

/-- The parent that the depth tells is the one the node is stored with. -/
theorem WellFormed.parent_eq_ok (h : t.WellFormed) (hid : id < t.size) :
    t.parent id = .ok (t.parentOf? id) := by
  rw [Tree.parent, depth_eq_ok hid]
  cases hp : t.parentOf? id with
  | none =>
    have hdepth : t.depthOf id = 0 := by simp [depthOf, lineage_of_parentOf?_eq_none hp]
    rw [hdepth]
    rfl
  | some parent =>
    have hparent : parent ∈ t.lineage id := (h.isParent_iff.mp hp).1
    rw [h.depthOf_of_parent hp]
    show t.ancestorAt id (t.depthOf parent) = _
    rw [ancestorAt_eq_ok hid, h.getElem?_reverse_lineage_iff.mpr hparent]

/-! ## Names -/

/-- The name that a node is stored with. -/
def nameOf? (t : Tree) (id : NodeId) : Option Name := t.nodes[id]?.map Node.name

/-- Every node is still there, with its name. -/
def KeepsNames (t t' : Tree) : Prop := ∀ id name, t.nameOf? id = some name → t'.nameOf? id = some name

theorem Grows.keepsNames (h : t.Grows t') : t.KeepsNames t' := by
  intro id held hid
  obtain ⟨node, hnode, hname⟩ := Option.map_eq_some_iff.mp hid
  obtain ⟨more, hnode'⟩ := h id node hnode
  rw [nameOf?, hnode']
  exact congrArg some hname

/-- Names stay in a change of one node that leaves its name alone. -/
theorem keepsNames_update {change : Node → Node} (hupdate : t.update id change = .ok t')
    (hchange : ∀ node, (change node).name = node.name) : t.KeepsNames t' := by
  simp only [Tree.update, bind_eq_ok_iff, pure_eq_ok_iff] at hupdate
  obtain ⟨_, -, rfl⟩ := hupdate
  intro n held hn
  obtain ⟨node, hnode, rfl⟩ := Option.map_eq_some_iff.mp hn
  simp only [nameOf?, Array.getElem?_modify, hnode]
  split
  · exact congrArg some (hchange node)
  · rfl

/-- The root has the empty name, whatever is changed. -/
theorem Reachable.nameOf?_root (ht : Reachable t) : t.nameOf? root = some .empty := by
  -- the empty name from the start, and no change touches names
  induction ht with
  | empty => rfl
  | addChild _ hadd ih =>
    simp only [Tree.addChild, bind_eq_ok_iff, pure_eq_ok_iff] at hadd
    obtain ⟨_, -, heq⟩ := hadd
    cases heq
    exact (grows_pushChild _ _).keepsNames _ _ ih
  | @addPath t t' path id _ hadd ih =>
    unfold Tree.addPath at hadd
    split at hadd
    · next normal _ =>
      have ht : (t.ensureSteps root normal.steps).1 = t' := congrArg Prod.fst (Except.ok.inj hadd)
      exact ht ▸ (grows_ensureSteps _ _).keepsNames _ _ ih
    · cases hadd
  | setProperty _ hset ih => exact keepsNames_update hset (fun _ => rfl) _ _ ih
  | hide _ hhide ih => exact keepsNames_update hhide (fun _ => rfl) _ _ ih

theorem nodeName_eq_ok {name : Name} (hname : t.nameOf? id = some name) :
    t.nodeName id = .ok name := by
  obtain ⟨node, hnode, rfl⟩ := Option.map_eq_some_iff.mp hname
  rw [nodeName, node_eq_ok_iff.mpr hnode]
  rfl

/-- The name that the path tells is the one the node is stored with. -/
theorem Reachable.nodeNameOfPath_eq_ok (ht : Reachable t) {name : Name}
    (hname : t.nameOf? id = some name) : t.nodeNameOfPath id = .ok name := by
  have h := ht.wellFormed
  obtain ⟨node, hnode, rfl⟩ := Option.map_eq_some_iff.mp hname
  have hid : id < t.size := lt_size_iff.mpr ⟨node, hnode⟩
  rw [nodeNameOfPath, pathOf_eq_ok_iff.mpr ⟨hid, rfl⟩]
  show Except.ok ((Path.name? ⟨true, t.stepsTo id⟩).getD .empty) = _
  by_cases hroot : id = root
  · subst hroot
    rw [h.stepsTo_root]
    exact congrArg Except.ok (Option.some.inj (ht.nameOf?_root.symm.trans hname))
  · obtain ⟨parent, hp⟩ := h.exists_parent hid hroot
    rw [h.stepsTo_of_parentOf? hp, stepTo_eq hnode, Path.name?, List.getLast?_concat]
    rfl

/-! ## Coherence -/

/-- What is told about a node fits its path: the depth, the ancestor at every depth, the parent and
the name. -/
structure FitsPath (t : Tree) (id : NodeId) (p : Naming.Path) : Prop where
  pathOf : t.pathOf id = .ok p
  depth : t.depth id = .ok p.steps.length
  itself : t.ancestorAt id p.steps.length = .ok (some id)
  deeper : ∀ d, p.steps.length < d → t.ancestorAt id d = .ok none
  ancestor : ∀ d ≤ p.steps.length, ∃ a, t.ancestorAt id d = .ok (some a) ∧
    t.pathOf a = .ok ⟨true, p.steps.take d⟩ ∧ ∀ e ≤ d, t.ancestorAt a e = t.ancestorAt id e
  parent : t.parent id = .ok (t.parentOf? id)
  parentOf?_eq_none_iff : t.parentOf? id = none ↔ id = root
  name : ∃ name, t.nodeName id = .ok name ∧ t.nodeNameOfPath id = .ok name

/-- **What the tree tells about its nodes is coherent.** In every tree that is reached by changes,
depth, ancestors, parent and name of a node fit its path; and where there is no node, every answer and
every change fails for it, and the changes in place leave the tree as it was. -/
theorem navigation_coherent (ht : Reachable t) :
    (∀ id, id < t.size → ∃ p, t.FitsPath id p) ∧ ∀ id, t.size ≤ id → t.Lacks id := by
  have h := ht.wellFormed
  refine ⟨fun id hid => ⟨⟨true, t.stepsTo id⟩, ?_⟩, fun id hid => lacks_of_size_le hid⟩
  obtain ⟨node, hnode⟩ := lt_size_iff.mp hid
  have hname : t.nameOf? id = some node.name := by rw [nameOf?, hnode]; rfl
  have hlength : (t.stepsTo id).length = t.depthOf id := length_stepsTo id
  -- all answers are read off the steps and the lineage of the node
  exact {
    pathOf := pathOf_eq_ok_iff.mpr ⟨hid, rfl⟩
    depth := by rw [depth_eq_ok hid, hlength]
    itself := by
      rw [ancestorAt_eq_ok hid, hlength, h.getElem?_reverse_lineage_iff.mpr (mem_lineage_self id)]
    deeper := fun d hd => by
      have hd : t.depthOf id < d := hlength ▸ hd
      rw [ancestorAt_eq_ok hid, List.getElem?_eq_none]
      rwa [List.length_reverse, length_lineage]
    ancestor := fun d hd => h.exists_ancestorAt hid (hlength ▸ hd)
    parent := h.parent_eq_ok hid
    parentOf?_eq_none_iff := by
      rw [h.parentOf?_eq_none_iff, or_iff_left (Nat.not_le.mpr hid)]
      rfl
    name := ⟨node.name, nodeName_eq_ok hname, ht.nodeNameOfPath_eq_ok hname⟩ }

/-- The nodes `/a`, `/a/b`, `/a/b[2]` and, below the last one, a hidden `/a/b[2]/c`. -/
def nestedTree : Tree where
  nodes := #[
    ⟨.empty, none, [1], ⟨[]⟩, false⟩, ⟨⟨"", "a"⟩, some 0, [2, 3], ⟨[]⟩, false⟩,
    ⟨⟨"", "b"⟩, some 1, [], ⟨[]⟩, false⟩, ⟨⟨"", "b"⟩, some 1, [4], ⟨[]⟩, false⟩,
    ⟨⟨"", "c"⟩, some 3, [], ⟨[]⟩, true⟩]

theorem reachable_nestedTree : Reachable nestedTree := by
  have hpath := Reachable.empty.addPath (show empty.addPath
    ⟨true, [.named ⟨"", "a"⟩ 1, .named ⟨"", "b"⟩ 2, .named ⟨"", "c"⟩ 1]⟩ = .ok (_, 4) from rfl)
  exact hpath.hide (show Tree.hide _ 4 = .ok nestedTree from rfl)

theorem navigation_coherent_nested :
    Reachable nestedTree ∧ 4 < nestedTree.size ∧
      nestedTree.pathOf 4 =
        .ok ⟨true, [.named ⟨"", "a"⟩ 1, .named ⟨"", "b"⟩ 2, .named ⟨"", "c"⟩ 1]⟩ ∧
      (∃ p, nestedTree.FitsPath 4 p) ∧ nestedTree.ancestorAt 4 2 = .ok (some 3) ∧
      nestedTree.size ≤ 5 ∧ nestedTree.Lacks 5 := by
  have hcoherent := navigation_coherent reachable_nestedTree
  exact ⟨reachable_nestedTree, by decide, by decide +kernel, hcoherent.1 4 (by decide),
    by decide +kernel, by decide, hcoherent.2 5 (by decide)⟩

end ContentQuery.Tree
