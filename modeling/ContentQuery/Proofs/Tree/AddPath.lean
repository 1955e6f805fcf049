import ContentQuery.Proofs.Tree.Growth
import ContentQuery.Proofs.Tree.Navigation

/-! # Adding a path

A child that is not there is added behind as many namesakes as its index asks for, so each node added
has the name of the step and an index up to the step's. Steps are followed in a growing tree: what was
reached before stays where it is, so the steps lead to the last node, and they lead there again
without adding anything. In place the namesakes are added one by one, until the last one has the
index; their number is the one that is missing.
-/

namespace ContentQuery.Tree

open Naming

variable {t t' : Tree} {id parent start : ℕ} {name : Name} {index : UInt32}

/-! ## New namesakes -/

/-- A new child is the last of its namesakes. -/
theorem WellFormed.namesakes_pushChild (h : t.WellFormed) (hparent : parent < t.size) (name : Name) :
    (t.pushChild parent name).namesakes parent name = t.namesakes parent name ++ [t.size] := by
  have hold : ∀ c ∈ t.children parent, (t.pushChild parent name).hasName name c = t.hasName name c :=
    fun c hc => (grows_pushChild parent name).hasName_eq
      (h.lt_size_of_parentOf? (h.mem_children_iff.mp hc))
  have hnew : (t.pushChild parent name).hasName name t.size = true := by
    rw [hasName, Tree.pushChild, Array.getElem?_push, if_pos (by simp [size])]
    simp [Node.fresh]
  rw [namesakes, children_pushChild hparent, if_pos rfl, List.filter_append, List.filter_congr hold,
    namesakes, List.filter_singleton, hnew]
  rfl

/-- Children that are added in turn are the last of their namesakes, in the order of their numbers. -/
theorem WellFormed.namesakes_pushChildren (h : t.WellFormed) (hparent : parent < t.size)
    (name : Name) (n : ℕ) : (t.pushChildren parent name n).namesakes parent name =
      t.namesakes parent name ++ List.range' t.size n := by
  induction n generalizing t with
  | zero => exact (List.append_nil _).symm
  | succ n ih =>
    have hparent' : parent < (t.pushChild parent name).size := by
      rw [size_pushChild]
      exact Nat.lt_succ_of_lt hparent
    rw [Tree.pushChildren, ih (h.pushChild hparent name) hparent', h.namesakes_pushChild hparent,
      size_pushChild, List.append_assoc, List.range'_succ, List.singleton_append]

/-- The number of namesakes to add before there is a child with an index. -/
def missing (t : Tree) (parent : NodeId) (name : Name) (index : UInt32) : ℕ :=
  max index.toNat 1 - (t.namesakes parent name).length

theorem ensureChild_of_some {child : NodeId} (hfind : t.findChild? parent name index = some child) :
    t.ensureChild parent name index = (t, child) := by
  rw [ensureChild, hfind]

/-- For one that is not, as many are added as are missing, and the last is taken. -/
theorem ensureChild_of_none (hfind : t.findChild? parent name index = none) :
    t.ensureChild parent name index = (t.pushChildren parent name (t.missing parent name index),
      t.size + t.missing parent name index - 1) := by
  rw [ensureChild, hfind]
  rfl

/-- Where a child is not found, there are fewer namesakes than its index asks for. -/
theorem length_namesakes_lt (hfind : t.findChild? parent name index = none) :
    (t.namesakes parent name).length < max index.toNat 1 := by
  have hlength := List.getElem?_eq_none_iff.mp hfind
  omega

/-- An index behind the namesakes there are, and not behind those that are missing, finds one of the
nodes added. -/
theorem WellFormed.findChild?_pushChildren (h : t.WellFormed) (hparent : parent < t.size) {n k : ℕ}
    (hk : k < n) (hindex : index.toNat - 1 = (t.namesakes parent name).length + k) :
    (t.pushChildren parent name n).findChild? parent name index = some (t.size + k) := by
  rw [findChild?, h.namesakes_pushChildren hparent, hindex,
    List.getElem?_append_right (Nat.le_add_right _ _), Nat.add_sub_cancel_left,
    List.getElem?_range' hk, Nat.one_mul]

/-- The child is there, once made sure of. -/
theorem WellFormed.findChild?_ensureChild (h : t.WellFormed) (hparent : parent < t.size)
    (name : Name) (index : UInt32) :
    (t.ensureChild parent name index).1.findChild? parent name index =
      some (t.ensureChild parent name index).2 := by
  cases hfind : t.findChild? parent name index with
  | some child => rw [ensureChild_of_some hfind, hfind]
  | none =>
    have hlt := length_namesakes_lt hfind
    have hlast : t.size + t.missing parent name index - 1 =
        t.size + (t.missing parent name index - 1) := by
      unfold missing
      omega
    rw [ensureChild_of_none hfind, hlast]
    exact h.findChild?_pushChildren hparent (by unfold missing; omega) (by unfold missing; omega)

theorem toNat_max_one (index : UInt32) : (max index 1).toNat = max index.toNat 1 := by
  have hone : (1 : UInt32).toNat = 1 := rfl
  show (if index ≤ 1 then 1 else index).toNat = _
  split
  · next hle =>
    rw [UInt32.le_iff_toNat_le, hone] at hle
    omega
  · next hle =>
    rw [UInt32.le_iff_toNat_le, hone] at hle
    omega

/-- The steps to a child that is made sure of are those to its parent and the one to it. -/
theorem WellFormed.stepsTo_ensureChild (h : t.WellFormed) (hparent : parent < t.size)
    (name : Name) (index : UInt32) :
    (t.ensureChild parent name index).1.stepsTo (t.ensureChild parent name index).2 =
      t.stepsTo parent ++ [.child name index] := by
  have hgrown := (h.ensureChild hparent name index).1
  obtain ⟨hp, hstep⟩ := hgrown.stepTo_of_findChild? (h.findChild?_ensureChild hparent name index)
  rw [hgrown.stepsTo_of_parentOf? hp, hstep,
    (grows_ensureChild parent name index).stepsTo_eq h hgrown hparent]

/-- A node that is added on the way to a child is a namesake of it with an index not above. -/
theorem WellFormed.stepsTo_of_ensureChild (h : t.WellFormed) (hparent : parent < t.size)
    (hold : t.size ≤ id) (hnew : id < (t.ensureChild parent name index).1.size) :
    ∃ k, 1 ≤ k ∧ k ≤ max index 1 ∧
      (t.ensureChild parent name index).1.stepsTo id = t.stepsTo parent ++ [.named name k] := by
  have hgrown := (h.ensureChild hparent name index).1
  have hsteps := (grows_ensureChild parent name index).stepsTo_eq h hgrown hparent
  cases hfind : t.findChild? parent name index with
  | some child =>
    rw [ensureChild_of_some hfind] at hnew
    exact absurd hnew (Nat.not_lt.mpr hold)
  | none =>
    have hlt := length_namesakes_lt hfind
    rw [ensureChild_of_none hfind] at hgrown hsteps hnew ⊢
    rw [size_pushChildren] at hnew
    -- the index that counts the namesakes up to the node
    obtain ⟨k, hk⟩ : ∃ k : UInt32, k.toNat =
        (t.namesakes parent name).length + (id - t.size) + 1 := by
      have hbound := index.toNat_lt
      refine ⟨UInt32.ofNat ((t.namesakes parent name).length + (id - t.size) + 1), ?_⟩
      rw [UInt32.toNat_ofNat', Nat.mod_eq_of_lt]
      unfold missing at hnew
      omega
    have hfound :
        (t.pushChildren parent name (t.missing parent name index)).findChild? parent name k =
          some (t.size + (id - t.size)) :=
      h.findChild?_pushChildren hparent (by omega) (by omega)
    rw [Nat.add_sub_cancel' hold] at hfound
    obtain ⟨hp, hstep⟩ := hgrown.stepTo_of_findChild? hfound
    have hone : 1 ≤ k := by
      rw [UInt32.le_iff_toNat_le, hk]
      exact Nat.le_add_left 1 _
    refine ⟨k, hone, ?_, ?_⟩
    · rw [UInt32.le_iff_toNat_le, toNat_max_one, hk]
      unfold missing at hnew
      omega
    · rw [hgrown.stepsTo_of_parentOf? hp, hsteps, hstep, Step.child_of_one_le name hone]

/-! ## New steps -/

/-- The steps to a node that is added on the way along some steps are the first of these, the last
one of them with an index not above. -/
def AddedAlong (t : Tree) (before steps : List Step) (id : NodeId) : Prop :=
  ∃ front name index k, front ++ [Step.named name index] <+: steps ∧ 1 ≤ k ∧ k ≤ index ∧
    t.stepsTo id = before ++ (front ++ [.named name k])

/-- Steps down lead to the node that is made sure of, and every node that is added is on the way. -/
theorem WellFormed.stepsTo_ensureSteps (h : t.WellFormed) (hstart : start < t.size)
    {steps : List Step} (hsteps : Descents steps) :
    (t.ensureSteps start steps).1.stepsTo (t.ensureSteps start steps).2 =
        t.stepsTo start ++ steps.map Step.countedFromOne ∧
      ∀ id, t.size ≤ id → id < (t.ensureSteps start steps).1.size →
        (t.ensureSteps start steps).1.AddedAlong (t.stepsTo start)
          (steps.map Step.countedFromOne) id := by
  induction steps generalizing t start with
  | nil => exact ⟨(List.append_nil _).symm, fun id hold hnew => absurd hnew (Nat.not_lt.mpr hold)⟩
  | cons step steps ih =>
    rw [descents_cons_iff] at hsteps
    obtain ⟨⟨name, index, rfl⟩, hsteps⟩ := hsteps
    obtain ⟨hchild, hlt⟩ := h.ensureChild hstart name index
    obtain ⟨hlast, hadded⟩ := ih hchild hlt hsteps
    have hfirst := h.stepsTo_ensureChild hstart name index
    rw [hfirst] at hlast hadded
    refine ⟨?_, fun id hold hnew => ?_⟩
    · rw [Tree.ensureSteps, hlast, List.append_assoc]
      rfl
    · rw [Tree.ensureSteps] at hnew ⊢
      by_cases hid : id < (t.ensureChild start name index).1.size
      · -- added with the first step, and kept since
        obtain ⟨k, hone, hle, hk⟩ := h.stepsTo_of_ensureChild hstart hold hid
        have hlater := (hchild.ensureSteps hlt steps).1
        refine ⟨[], name, max index 1, k, ?_, hone, hle, ?_⟩
        · exact List.prefix_append _ _
        · rw [(grows_ensureSteps _ steps).stepsTo_eq hchild hlater hid, hk]
          rfl
      · -- added with a later step
        obtain ⟨front, name', index', k, hprefix, hone, hle, hk⟩ :=
          hadded id (Nat.not_lt.mp hid) hnew
        refine ⟨.child name index :: front, name', index', k, ?_, hone, hle, ?_⟩
        · exact (List.prefix_cons_inj _).mpr hprefix
        · rw [hk, List.append_assoc]
          rfl

/-- Steps that have been made sure of lead to the same node in every tree grown since, and add
nothing. -/
theorem WellFormed.ensureSteps_of_grows (h : t.WellFormed) (hstart : start < t.size)
    {steps : List Step} (hsteps : Descents steps) (hgrows : (t.ensureSteps start steps).1.Grows t') :
    t'.ensureSteps start steps = (t', (t.ensureSteps start steps).2) := by
  induction steps generalizing t start with
  | nil => rfl
  | cons step steps ih =>
    rw [descents_cons_iff] at hsteps
    obtain ⟨⟨name, index, rfl⟩, hsteps⟩ := hsteps
    obtain ⟨hchild, hlt⟩ := h.ensureChild hstart name index
    have hfind : t'.findChild? start name index = some (t.ensureChild start name index).2 :=
      ((grows_ensureSteps _ steps).trans hgrows).findChild?_eq hchild
        (h.findChild?_ensureChild hstart name index)
    rw [Tree.ensureSteps, ensureChild_of_some hfind]
    exact ih hchild hlt hsteps hgrows

/-! ## In place -/

namespace Edit

/-- The last of some namesakes is counted behind the others. -/
theorem toNat_siblingIndex_last (h : t.WellFormed) {last : NodeId} {front : List NodeId}
    (hlast : t.namesakes parent name = front ++ [last]) (hcount : front.length + 1 < 2 ^ 32) :
    (t.siblingIndex last).toNat = front.length + 1 := by
  have hmem : last ∈ t.namesakes parent name := by simp [hlast]
  have hget : (t.namesakes parent name)[front.length]? = some last := by simp [hlast]
  obtain ⟨hchild, hname⟩ := mem_namesakes_iff.mp hmem
  obtain ⟨node, hnode, hp⟩ := exists_node_of_parentOf? (h.mem_children_iff.mp hchild)
  obtain rfl : node.name = name := by simpa [hasName, hnode] using hname
  rw [siblingIndex_of_parent hnode hp, idxOf?_of_getElem? (h.nodup_namesakes parent node.name) hget,
    Option.getD_some, toNat_place_add_one hcount]

theorem run_addChild_of_lt (hparent : parent < t.size) (name : Name) :
    (Edit.addChild parent name).run t = .ok t.size (t.pushChild parent name) := by
  obtain ⟨node, hnode⟩ := exists_node_eq_ok hparent
  rw [run_addChild, Tree.addChild, hnode]
  rfl

/-- As many namesakes are added as the index of the last one is too low by. -/
theorem run_addUntil (h : t.WellFormed) (hparent : parent < t.size) {last n : ℕ} (limit : ℕ)
    {front : List NodeId} (hlast : t.namesakes parent name = front ++ [last])
    (hcount : front.length + 1 < 2 ^ 32) (hn : index.toNat - (front.length + 1) = n)
    (hlimit : n ≤ limit) : (addUntil parent name index limit last).run t =
      .ok (if n = 0 then last else t.size + n - 1) (t.pushChildren parent name n) := by
  induction limit generalizing t last n front with
  | zero =>
    obtain rfl := Nat.le_zero.mp hlimit
    rfl
  | succ limit ih =>
    -- a turn adds a child as long as one is missing
    have htest : t.siblingIndex last < index ↔ n ≠ 0 := by
      rw [UInt32.lt_iff_toNat_lt, toNat_siblingIndex_last h hlast hcount]
      omega
    rw [addUntil, EStateM.run_bind, EStateM.run_get]
    simp only [htest]
    cases n with
    | zero => rfl
    | succ n =>
      have hbound := index.toNat_lt
      have hlast' : (t.pushChild parent name).namesakes parent name =
          (front ++ [last]) ++ [t.size] := by
        rw [h.namesakes_pushChild hparent, hlast]
      have hlength : (front ++ [last]).length = front.length + 1 := List.length_append
      have hrest := ih (h.pushChild hparent name) (by rw [size_pushChild]; omega) hlast'
        (by omega) (n := n) (by omega) (by omega)
      have hid : (if n = 0 then t.size else (t.pushChild parent name).size + n - 1) =
          t.size + (n + 1) - 1 := by
        rw [size_pushChild]
        split <;> omega
      rw [if_pos (Nat.succ_ne_zero n), if_neg (Nat.succ_ne_zero n), EStateM.run_bind,
        run_addChild_of_lt hparent, pushChildren, ← hid]
      exact hrest

/-- The loop that adds one namesake after the other comes to what adding the missing ones at once does.
-/
theorem run_ensureChild (h : t.WellFormed) (hparent : parent < t.size) (name : Name)
    (index : UInt32) : (ensureChild parent name index).run t =
      .ok (t.ensureChild parent name index).2 (t.ensureChild parent name index).1 := by
  rw [ensureChild, EStateM.run_bind, EStateM.run_get]
  cases hfind : t.findChild? parent name index with
  | some child =>
    simp only [hfind]
    rw [ensureChild_of_some hfind]
    rfl
  | none =>
    -- at least one is missing; the loop adds it, and goes on for the others
    have hlt := length_namesakes_lt hfind
    have hbound := index.toNat_lt
    obtain ⟨n, hn⟩ : ∃ n, t.missing parent name index = n + 1 :=
      Nat.exists_eq_add_one_of_ne_zero (by unfold missing; omega)
    have hcount : index.toNat - ((t.namesakes parent name).length + 1) = n := by
      unfold missing at hn
      omega
    have hrest := run_addUntil (h.pushChild hparent name) (by rw [size_pushChild]; omega)
      index.toNat (h.namesakes_pushChild hparent name) (by omega) hcount (by omega)
    have hid : (if n = 0 then t.size else (t.pushChild parent name).size + n - 1) =
        t.size + (n + 1) - 1 := by
      rw [size_pushChild]
      split <;> omega
    simp only [hfind]
    rw [ensureChild_of_none hfind, hn, EStateM.run_bind, run_addChild_of_lt hparent, pushChildren,
      ← hid]
    exact hrest

/-- Ensuring one step after the other comes to the same. -/
theorem run_ensureSteps (h : t.WellFormed) (hstart : start < t.size) (steps : List Step) :
    (ensureSteps start steps).run t =
      .ok (t.ensureSteps start steps).2 (t.ensureSteps start steps).1 := by
  induction steps generalizing t start with
  | nil => rfl
  | cons step steps ih =>
    cases step with
    | current | parent => exact ih h hstart
    | named name index =>
      obtain ⟨hchild, hlt⟩ := h.ensureChild hstart name index
      rw [ensureSteps, EStateM.run_bind, run_ensureChild h hstart]
      exact ih hchild hlt

/-- In place, a path is added as by the change. -/
theorem run_addPath (h : t.WellFormed) (p : Naming.Path) :
    (Edit.addPath p).run t = ending t (t.addPath p) := by
  rw [Edit.addPath, Tree.addPath]
  cases p.toAbsolute.normalize? with
  | none => rfl
  | some q => exact run_ensureSteps h h.size_pos q.steps

end Edit

/-! ## Paths -/

/-- The second tree has a node with the path. Of the nodes of the first one, each is the same but for
more children, and has the path that it had. The path of any other node is a beginning of the path,
save that the index of its last step may be a lower one. -/
structure Completes (t t' : Tree) (path : Naming.Path) (id : NodeId) : Prop where
  pathOf : t'.pathOf id = .ok path
  grows : t.Grows t'
  keepsPath : ∀ n < t.size, t'.pathOf n = t.pathOf n
  added : ∀ n, t.size ≤ n → n < t'.size →
    ∃ front name index k, front ++ [Step.named name index] <+: path.steps ∧ 1 ≤ k ∧ k ≤ index ∧
      t'.pathOf n = .ok ⟨true, front ++ [.named name k]⟩

/-- Ensuring steps completes the tree to the path of the last node. -/
theorem WellFormed.completes_ensureSteps (h : t.WellFormed) {steps : List Step}
    (hsteps : Descents steps) :
    t.Completes (t.ensureSteps root steps).1 ⟨true, steps.map Step.countedFromOne⟩
      (t.ensureSteps root steps).2 := by
  obtain ⟨hgrown, hlt⟩ := h.ensureSteps h.size_pos steps
  have hgrows : t.Grows (t.ensureSteps root steps).1 := grows_ensureSteps root steps
  -- the walk begins at the root, so the paths are the steps that are ensured
  obtain ⟨hlast, hadded⟩ := h.stepsTo_ensureSteps h.size_pos hsteps
  have hroot : t.stepsTo 0 = [] := h.stepsTo_root
  rw [hroot] at hlast hadded
  refine ⟨pathOf_eq_ok_iff.mpr ⟨hlt, ?_⟩, hgrows, fun n hn => hgrows.pathOf_eq h hgrown hn,
    fun n hold hnew => ?_⟩
  · exact congrArg (Naming.Path.mk true) hlast.symm
  · obtain ⟨front, name, index, k, hprefix, hone, hle, hk⟩ := hadded n hold hnew
    exact ⟨front, name, index, k, hprefix, hone, hle,
      pathOf_eq_ok_iff.mpr ⟨hnew, congrArg (Naming.Path.mk true) hk.symm⟩⟩

/-- A normalized absolute path descends. -/
theorem descents_of_normalize? {p q : Naming.Path} (h : p.toAbsolute.normalize? = some q) :
    Descents q.steps :=
  (Path.isNormal_of_normalize? h).descents (absolute_of_normalize? h)

/-- **Adding a path creates what is missing along it, and nothing else.** In every tree that is reached
by changes: a path that climbs above the root is not added, and the tree stays as it was. Any other
path leads, made absolute and normalized and its indexes counted from one, to the node that is given;
the nodes there were keep everything but for more children, the nodes added are on the way, and to
add the path again gives the same node and changes nothing. -/
theorem addPath_completes (ht : Reachable t) (p : Naming.Path) :
    (p.toAbsolute.normalize? = none →
        t.addPath p = .error (.noPath p) ∧ (Edit.addPath p).run t = .error (.noPath p) t) ∧
      ∀ q, p.toAbsolute.normalize? = some q → ∃ t' id,
        t.addPath p = .ok (t', id) ∧ (Edit.addPath p).run t = .ok id t' ∧
          t.Completes t' q.countedFromOne id ∧
            t'.addPath p = .ok (t', id) ∧ (Edit.addPath p).run t' = .ok id t' := by
  have h := ht.wellFormed
  refine ⟨fun hp => ?_, fun q hq => ?_⟩
  · have hadd : t.addPath p = .error (.noPath p) := by rw [Tree.addPath, hp]
    refine ⟨hadd, ?_⟩
    rw [Edit.run_addPath h, hadd]
    rfl
  · have hsteps : Descents q.steps := descents_of_normalize? hq
    have hadd : t.addPath p = .ok (t.ensureSteps root q.steps) := by rw [Tree.addPath, hq]
    have hgrown : (t.ensureSteps root q.steps).1.WellFormed := (h.ensureSteps h.size_pos q.steps).1
    -- asked for again, every step of the path is there
    have hagain : (t.ensureSteps root q.steps).1.addPath p = .ok (t.ensureSteps root q.steps) := by
      rw [Tree.addPath, hq]
      exact congrArg Except.ok (h.ensureSteps_of_grows h.size_pos hsteps (.refl _))
    refine ⟨_, _, hadd, ?_, ?_, hagain, ?_⟩
    · rw [Edit.run_addPath h, hadd]
      rfl
    · rw [Naming.Path.countedFromOne, absolute_of_normalize? hq]
      exact h.completes_ensureSteps hsteps
    · rw [Edit.run_addPath hgrown, hagain]
      rfl

/-- Beside three of five namesakes, `b/../a[5]/c` adds the other two, one of them with a child `c`. -/
theorem addPath_completes_namesakes :
    let p : Naming.Path :=
      ⟨false, [.named ⟨"", "b"⟩ 1, .parent, .named ⟨"", "a"⟩ 5, .named ⟨"", "c"⟩ 0]⟩
    let q : Naming.Path := ⟨true, [.named ⟨"", "a"⟩ 5, .named ⟨"", "c"⟩ 0]⟩
    let above : Naming.Path := ⟨false, [.named ⟨"", "b"⟩ 1, .parent, .parent]⟩
    Reachable namesakeTree ∧ p.toAbsolute.normalize? = some q ∧
      (∃ t' id, namesakeTree.addPath p = .ok (t', id) ∧ (Edit.addPath p).run namesakeTree = .ok id t' ∧
        namesakeTree.Completes t' q.countedFromOne id ∧
          t'.addPath p = .ok (t', id) ∧ (Edit.addPath p).run t' = .ok id t') ∧
      (namesakeTree.addPath p).map (fun grown => (grown.1.size, grown.2)) = .ok (8, 7) ∧
      above.toAbsolute.normalize? = none ∧
      namesakeTree.addPath above = .error (.noPath above) ∧
      (Edit.addPath above).run namesakeTree = .error (.noPath above) namesakeTree := by
  intro p q above
  have hq : p.toAbsolute.normalize? = some q := by decide +kernel
  have habove : above.toAbsolute.normalize? = none := by decide +kernel
  have hfails := (addPath_completes reachable_namesakeTree above).1 habove
  exact ⟨reachable_namesakeTree, hq, (addPath_completes reachable_namesakeTree p).2 q hq,
    by decide +kernel, habove, hfails⟩

end ContentQuery.Tree
