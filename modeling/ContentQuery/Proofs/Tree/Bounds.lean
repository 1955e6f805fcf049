import ContentQuery.Proofs.Tree.Access
import ContentQuery.Proofs.Tree.AddPath
import ContentQuery.Proofs.Tree.Representation

/-! # Accesses come to an end

In a well-formed tree a stored number is that of a node, so no access follows it out of bounds. A parent
has a smaller number than its child, so the loops that go from parent to parent come to the root; and
every namesake that is added has the next index, so the loop that adds them comes to the one that it is
after. Hence every access ends, and what it gives is what the tree tells.
-/

namespace ContentQuery.Tree

open Naming

variable {t t' : Tree} {id parent : ℕ} {name : Name} {index : UInt32} {α β : Type}

namespace Access

/-- The access comes to an end, and not out of bounds: with a result or an error, and with a tree. -/
def EndsIn (access : Access α) (t : Tree) : EStateM.Result NavigationError Tree α → Prop
  | .ok a t' => access.run.run t = .some (.ok a, t')
  | .error e t' => access.run.run t = .some (.error (.failed e), t')

theorem endsIn_pure (a : α) : EndsIn (pure a) t (.ok a t) := rfl

/-- Two accesses in a row: the second one runs in the tree that the first one leaves, if that succeeds.
-/
theorem run_bind (access : Access α) (next : α → Access β) :
    (access >>= next).run.run t = (access.run.run t).bind fun
      | (.ok a, t') => (next a).run.run t'
      | (.error stop, t') => .some (.error stop, t') := by
  rw [ExceptT.run_bind, StateT.run_bind, Part.bind_eq_bind]
  congr 1
  funext ⟨outcome, t'⟩
  cases outcome <;> rfl

/-- An access that ends is followed by the next one. -/
theorem EndsIn.bind {access : Access α} {next : α → Access β} {a : α}
    {result : EStateM.Result NavigationError Tree β} (h : EndsIn access t (.ok a t'))
    (hnext : EndsIn (next a) t' result) : EndsIn (access >>= next) t result := by
  have hrun : (access >>= next).run.run t = (next a).run.run t' := by
    rw [run_bind, show access.run.run t = .some (.ok a, t') from h, Part.bind_some]
  cases result <;> exact hrun.trans hnext

theorem EndsIn.bind_error {access : Access α} {e : NavigationError} (next : α → Access β)
    (h : EndsIn access t (.error e t')) : EndsIn (access >>= next) t (.error e t') := by
  show (access >>= next).run.run t = _
  rw [run_bind, show access.run.run t = .some (.error (.failed e), t') from h, Part.bind_some]

/-- A loop ends with the result of a turn that gives one. -/
theorem EndsIn.loop_done {σ : Type} {turn : σ → Access (α ⊕ σ)} {state : σ} {a : α}
    (h : EndsIn (turn state) t (.ok (.inl a) t')) : EndsIn (loop turn state) t (.ok a t') := by
  refine Part.eq_some_iff.mpr (PFun.fix_stop ?_)
  show _ ∈ ((turn state).run.run t).map _
  rw [show (turn state).run.run t = .some (.ok (.inl a), t') from h, Part.map_some]
  exact Part.mem_some _

/-- A loop goes on with what a turn gives to go on with. -/
theorem EndsIn.loop_next {σ : Type} {turn : σ → Access (α ⊕ σ)} {state next : σ}
    {result : EStateM.Result NavigationError Tree α}
    (h : EndsIn (turn state) t (.ok (.inr next) t')) (hnext : EndsIn (loop turn next) t' result) :
    EndsIn (loop turn state) t result := by
  have hrun : (loop turn state).run.run t = (loop turn next).run.run t' := by
    refine PFun.fix_fwd_eq ?_
    show _ ∈ ((turn state).run.run t).map _
    rw [show (turn state).run.run t = .some (.ok (.inr next), t') from h, Part.map_some]
    exact Part.mem_some _
  cases result <;> exact hrun.trans hnext

/-- A loop ends where one of its turns fails. -/
theorem EndsIn.loop_error {σ : Type} {turn : σ → Access (α ⊕ σ)} {state : σ} {e : NavigationError}
    (h : EndsIn (turn state) t (.error e t')) : EndsIn (loop turn state) t (.error e t') := by
  refine Part.eq_some_iff.mpr (PFun.fix_stop ?_)
  show _ ∈ ((turn state).run.run t).map _
  rw [show (turn state).run.run t = .some (.error (.failed e), t') from h, Part.map_some]
  exact Part.mem_some _

/-- What an access ends in that gives an answer and leaves the tree as it is. -/
def answered (t : Tree) : Except NavigationError α → EStateM.Result NavigationError Tree α
  | .ok a => .ok a t
  | .error e => .error e t

/-! ## Nodes -/

theorem endsIn_get : EndsIn get t (.ok t t) := by
  show (Except.ok <$> (get : StateT Tree Part Tree)).run t = _
  rw [StateT.run_map, StateT.run_get, map_pure]
  rfl

theorem endsIn_modify (change : Tree → Tree) : EndsIn (modify change) t (.ok () (change t)) := by
  show (Except.ok <$> (modify change : StateT Tree Part Unit)).run t = _
  rw [StateT.run_map, StateT.run_modify, map_pure]
  rfl

theorem endsIn_failed (e : NavigationError) :
    EndsIn (throw (.failed e) : Access α) t (.error e t) := rfl

/-- A number below the size leads to its node. -/
theorem endsIn_lookUp {node : Node} (hnode : t.nodes[id]? = some node) :
    EndsIn (lookUp id) t (.ok node t) := by
  refine endsIn_get.bind ?_
  rw [node_eq_ok_iff.mpr hnode]
  exact endsIn_pure node

/-- Any other number is refused before it is followed. -/
theorem endsIn_lookUp_error (hid : t.size ≤ id) :
    EndsIn (lookUp id) t (.error (.noNode id) t) := by
  refine endsIn_get.bind ?_
  rw [node_eq_error hid]
  exact endsIn_failed _

/-- Following a number of the tree stays in bounds. -/
theorem endsIn_fetch {node : Node} (hnode : t.nodes[id]? = some node) :
    EndsIn (fetch id) t (.ok node t) := by
  refine endsIn_get.bind ?_
  rw [hnode]
  exact endsIn_pure node

theorem endsIn_overwrite (hid : id < t.size) (change : Node → Node) :
    EndsIn (overwrite id change) t (.ok () ⟨t.nodes.modify id change⟩) := by
  obtain ⟨node, hnode⟩ := lt_size_iff.mp hid
  exact (endsIn_fetch hnode).bind (endsIn_modify _)

/-! ## Children -/

/-- Looking for a namesake among children of the tree follows their numbers only. -/
theorem endsIn_nthNamed? {children : List NodeId} (hchildren : ∀ child ∈ children, child < t.size)
    (name : Name) (count : ℕ) : EndsIn (nthNamed? name children count) t
      (.ok (children.filter (t.hasName name))[count]? t) := by
  induction children generalizing count with
  | nil => exact endsIn_pure none
  | cons child rest ih =>
    rw [List.forall_mem_cons] at hchildren
    obtain ⟨node, hnode⟩ := lt_size_iff.mp hchildren.1
    refine (endsIn_fetch hnode).bind ?_
    rw [List.filter_cons, hasName_of_node hnode]
    cases node.name == name with
    | false => exact ih hchildren.2 count
    | true =>
      cases count with
      | zero => exact endsIn_pure (some child)
      | succ count => exact ih hchildren.2 count

theorem endsIn_placeNamed? {children : List NodeId} (hchildren : ∀ child ∈ children, child < t.size)
    (name : Name) (id : NodeId) : EndsIn (placeNamed? name id children) t
      (.ok ((children.filter (t.hasName name)).idxOf? id) t) := by
  -- along the children, with the namesakes counted on the way
  induction children with
  | nil => exact endsIn_pure none
  | cons child rest ih =>
    rw [List.forall_mem_cons] at hchildren
    obtain ⟨node, hnode⟩ := lt_size_iff.mp hchildren.1
    refine (endsIn_fetch hnode).bind ?_
    rw [List.filter_cons, hasName_of_node hnode]
    cases node.name == name with
    | false => exact ih hchildren.2
    | true =>
      simp only [if_true, List.idxOf?_cons, beq_iff_eq]
      split
      · exact endsIn_pure (some 0)
      · exact (ih hchildren.2).bind (endsIn_pure _)

section WellFormed

variable (h : t.WellFormed)
include h

theorem endsIn_findChild? (hparent : parent < t.size) (name : Name) (index : UInt32) :
    EndsIn (findChild? parent name index) t (.ok (t.findChild? parent name index) t) := by
  obtain ⟨node, hnode⟩ := lt_size_iff.mp hparent
  refine (endsIn_fetch hnode).bind ?_
  rw [Tree.findChild?, namesakes, children_of_node hnode]
  exact endsIn_nthNamed? (h.forall_children_lt hnode) name _

theorem endsIn_siblingIndex (hid : id < t.size) :
    EndsIn (siblingIndex id) t (.ok (t.siblingIndex id) t) := by
  obtain ⟨node, hnode⟩ := lt_size_iff.mp hid
  refine (endsIn_fetch hnode).bind ?_
  -- the root has no siblings; any other node is looked for among the children of its parent
  cases hp : node.parent with
  | none =>
    have hindex : t.siblingIndex id = 1 := by
      obtain ⟨name, _, children, properties, hidden⟩ := node
      cases hp
      rw [Tree.siblingIndex, hnode]
    rw [hindex]
    exact endsIn_pure 1
  | some parent =>
    have hparent : t.parentOf? id = some parent := (parentOf?_of_node hnode).trans hp
    obtain ⟨above, habove⟩ := lt_size_iff.mp (h.parent_lt_size hparent)
    rw [siblingIndex_of_parent hnode hp, namesakes, children_of_node habove]
    refine (endsIn_fetch habove).bind ?_
    exact (endsIn_placeNamed? (h.forall_children_lt habove) node.name id).bind (endsIn_pure _)

/-! ## Parents -/

/-- The loop up to the root counts the steps that are left, as every parent is a node of the tree. -/
theorem endsIn_countParents (hid : id < t.size) (count : ℕ) :
    EndsIn (loop countParent (t.parentOf? id, count)) t (.ok (count + t.depthOf id) t) := by
  -- up the lineage, parents having smaller numbers
  induction id using Nat.strong_induction_on generalizing count with
  | _ id ih =>
    cases hp : t.parentOf? id with
    | none =>
      have hdepth : t.depthOf id = 0 := by simp [depthOf, lineage_of_parentOf?_eq_none hp]
      rw [hdepth]
      exact (endsIn_pure _).loop_done
    | some parent =>
      have hparent : parent < t.size := h.parent_lt_size hp
      obtain ⟨node, hnode⟩ := lt_size_iff.mp hparent
      have hcount : count + t.depthOf id = count + 1 + t.depthOf parent := by
        have hdepth := h.depthOf_of_parent hp
        omega
      have hturn : EndsIn (countParent (some parent, count)) t
          (.ok (.inr (t.parentOf? parent, count + 1)) t) := by
        rw [parentOf?_of_node hnode]
        exact (endsIn_fetch hnode).bind (endsIn_pure _)
      rw [hcount]
      exact hturn.loop_next (ih parent (h.parent_lt hp) hparent (count + 1))

/-- The depth of a node is counted, and one that is not there is refused. -/
theorem endsIn_depth (id : NodeId) : EndsIn (depth id) t (answered t (t.depth id)) := by
  by_cases hid : id < t.size
  · obtain ⟨node, hnode⟩ := lt_size_iff.mp hid
    rw [depth_eq_ok hid]
    refine (endsIn_lookUp hnode).bind ?_
    rw [← parentOf?_of_node hnode]
    simpa [answered] using endsIn_countParents h hid 0
  · have hid := Nat.not_lt.mp hid
    rw [(lacks_of_size_le hid).depth]
    exact (endsIn_lookUp_error hid).bind_error _

/-- Climbing goes through the lineage and ends at its end. -/
theorem endsIn_climb? (hid : id < t.size) (count : ℕ) :
    EndsIn (climb? id count) t (.ok (t.lineage id)[count]? t) := by
  -- one node of the lineage with each step
  induction count generalizing id with
  | zero =>
    obtain ⟨rest, hrest⟩ := t.exists_lineage_eq_cons id
    rw [hrest]
    exact endsIn_pure (some id)
  | succ count ih =>
    obtain ⟨node, hnode⟩ := lt_size_iff.mp hid
    refine (endsIn_fetch hnode).bind ?_
    rw [← parentOf?_of_node hnode]
    cases hp : t.parentOf? id with
    | none =>
      rw [lineage_of_parentOf?_eq_none hp]
      exact endsIn_pure none
    | some parent =>
      rw [h.lineage_of_parentOf? hp]
      exact ih (h.parent_lt_size hp)

theorem endsIn_ancestorAt (id : NodeId) (d : ℕ) :
    EndsIn (ancestorAt id d) t (answered t (t.ancestorAt id d)) := by
  have hdepth := endsIn_depth h id
  by_cases hid : id < t.size
  · rw [depth_eq_ok hid] at hdepth
    rw [ancestorAt_eq_ok hid]
    refine hdepth.bind ?_
    -- depths count from the root, and climbing from the node
    have hlength : (t.lineage id).length = t.depthOf id + 1 := length_lineage id
    split
    · rw [List.getElem?_eq_none (by rw [List.length_reverse]; omega)]
      exact endsIn_pure none
    · rw [List.getElem?_reverse (by omega), hlength, Nat.add_sub_cancel]
      exact endsIn_climb? h hid _
  · have hlacks := lacks_of_size_le (Nat.not_lt.mp hid)
    rw [hlacks.depth] at hdepth
    rw [hlacks.ancestorAt]
    exact hdepth.bind_error _

theorem endsIn_parent (id : NodeId) : EndsIn (Access.parent id) t (answered t (t.parent id)) := by
  have hdepth := endsIn_depth h id
  rw [Tree.parent]
  cases hd : t.depth id with
  | error e =>
    rw [hd] at hdepth
    exact hdepth.bind_error _
  | ok d =>
    rw [hd] at hdepth
    refine hdepth.bind ?_
    cases d with
    | zero => exact endsIn_pure none
    | succ d => exact endsIn_ancestorAt h id d

/-- The loop up to the root puts each step in front of those that it has. -/
theorem endsIn_collectSteps (hid : id < t.size) (steps : List Step) :
    EndsIn (loop collectStep (id, steps)) t (.ok (t.stepsTo id ++ steps) t) := by
  -- up the lineage, parents having smaller numbers
  induction id using Nat.strong_induction_on generalizing steps with
  | _ id ih =>
    obtain ⟨node, hnode⟩ := lt_size_iff.mp hid
    cases hp : t.parentOf? id with
    | none =>
      have hturn : EndsIn (collectStep (id, steps)) t (.ok (.inl steps) t) := by
        refine (endsIn_lookUp hnode).bind ?_
        rw [← parentOf?_of_node hnode, hp]
        exact endsIn_pure _
      rw [stepsTo, lineage_of_parentOf?_eq_none hp]
      exact hturn.loop_done
    | some parent =>
      have hturn : EndsIn (collectStep (id, steps)) t
          (.ok (.inr (parent, t.stepTo id :: steps)) t) := by
        refine (endsIn_lookUp hnode).bind ?_
        rw [← parentOf?_of_node hnode, hp, stepTo_eq hnode]
        exact (endsIn_fetch hnode).bind ((endsIn_siblingIndex h hid).bind (endsIn_pure _))
      rw [h.stepsTo_of_parentOf? hp, List.append_assoc]
      exact hturn.loop_next (ih parent (h.parent_lt hp) (h.parent_lt_size hp) _)

theorem endsIn_pathOf (id : NodeId) : EndsIn (pathOf id) t (answered t (t.pathOf id)) := by
  by_cases hid : id < t.size
  · rw [pathOf_eq_ok_iff.mpr ⟨hid, rfl⟩]
    refine (endsIn_collectSteps h hid []).bind ?_
    rw [List.append_nil]
    exact endsIn_pure _
  · have hid := Nat.not_lt.mp hid
    have hturn : EndsIn (collectStep (id, [])) t (.error (.noNode id) t) :=
      (endsIn_lookUp_error hid).bind_error _
    rw [(lacks_of_size_le hid).pathOf]
    exact hturn.loop_error.bind_error _

/-! ## Paths -/

/-- A walk down goes from node to node of the tree. -/
theorem endsIn_descend? {start : ℕ} (hstart : start < t.size) (steps : List Step) :
    EndsIn (descend? start steps) t (.ok (t.descend? start steps) t) := by
  induction steps generalizing start with
  | nil => exact endsIn_pure (some start)
  | cons step steps ih =>
    cases step with
    | current | parent => exact endsIn_pure none
    | named name index =>
      refine (endsIn_findChild? h hstart name index).bind ?_
      rw [Tree.descend?]
      cases hfind : t.findChild? start name index with
      | none => exact endsIn_pure none
      | some child =>
        -- the child that is found is a node of the tree, so its hidden flag can be fetched
        have hchild : child < t.size :=
          h.lt_size_of_parentOf? (h.mem_children_iff.mp (mem_children_of_findChild? hfind))
        obtain ⟨node, hnode⟩ := lt_size_iff.mp hchild
        have hhidden : t.isHidden child = node.hidden := by simp [isHidden, hnode]
        refine (endsIn_fetch hnode).bind ?_
        simp only [hhidden]
        split
        · exact endsIn_pure none
        · exact ih hchild

/-- A path is resolved in bounds, whatever its steps are. -/
theorem endsIn_resolve? (path : Naming.Path) :
    EndsIn (resolve? path) t (.ok (t.resolve? path) t) := by
  rw [Tree.resolve?, resolve?]
  cases path.toAbsolute.normalize? with
  | none => exact endsIn_pure none
  | some normal => exact endsIn_descend? h h.size_pos normal.steps

/-! ## Changes -/

omit h in
theorem endsIn_addChild (hparent : parent < t.size) (name : Name) :
    EndsIn (addChild parent name) t (.ok t.size (t.pushChild parent name)) := by
  obtain ⟨node, hnode⟩ := lt_size_iff.mp hparent
  refine (endsIn_lookUp hnode).bind (endsIn_get.bind ((endsIn_modify _).bind ?_))
  have hparent' : parent < (⟨t.nodes.push (.fresh name (some parent))⟩ : Tree).size := by
    rw [size, Array.size_push]
    exact Nat.lt_succ_of_lt hparent
  refine (endsIn_overwrite hparent' _).bind ?_
  rw [← modify_push_fresh hparent name]
  exact endsIn_pure t.size

/-- Where the last child has the index there is nothing to add. -/
theorem endsIn_addNext_done {last : ℕ} (hlast : last < t.size) (hhigh : ¬ t.siblingIndex last < index) :
    EndsIn (loop (addNext parent name index) last) t (.ok last t) := by
  refine EndsIn.loop_done ((endsIn_siblingIndex h hlast).bind ?_)
  rw [if_neg hhigh]
  exact endsIn_pure _

/-- The loop ends as one with a limit does that is not stopped by the limit. -/
theorem endsIn_addUntil (hparent : parent < t.size) {last limit : ℕ} (hlast : last < t.size)
    (hrun : (Edit.addUntil parent name index limit last).run t = .ok id t')
    (hreached : ¬ t'.siblingIndex id < index) :
    EndsIn (loop (addNext parent name index) last) t (.ok id t') := by
  -- the limit counts the turns that are left, so it does not matter while it is not reached
  induction limit generalizing t last with
  | zero =>
    cases hrun
    exact endsIn_addNext_done h hlast hreached
  | succ limit ih =>
    rw [Edit.addUntil, EStateM.run_bind, EStateM.run_get] at hrun
    by_cases hlow : t.siblingIndex last < index
    · simp only [if_pos hlow, EStateM.run_bind, Edit.run_addChild_of_lt hparent] at hrun
      have hturn : EndsIn (addNext parent name index last) t
          (.ok (.inr t.size) (t.pushChild parent name)) := by
        refine (endsIn_siblingIndex h hlast).bind ?_
        rw [if_pos hlow]
        exact (endsIn_addChild hparent name).bind (endsIn_pure _)
      refine hturn.loop_next ?_
      exact ih (h.pushChild hparent name) (by rw [size_pushChild]; omega)
        (by rw [size_pushChild]; omega) hrun
    · simp only [if_neg hlow] at hrun
      cases hrun
      exact endsIn_addNext_done h hlast hlow

/-- The loop that adds namesakes ends when the index is reached. -/
theorem endsIn_ensureChild (hparent : parent < t.size) (name : Name) (index : UInt32) :
    EndsIn (ensureChild parent name index) t
      (.ok (t.ensureChild parent name index).2 (t.ensureChild parent name index).1) := by
  refine (endsIn_findChild? h hparent name index).bind ?_
  have hrun := Edit.run_ensureChild h hparent name index
  rw [Edit.ensureChild, EStateM.run_bind, EStateM.run_get] at hrun
  cases hfind : t.findChild? parent name index with
  | some child =>
    rw [ensureChild_of_some hfind]
    exact endsIn_pure child
  | none =>
    simp only [hfind, EStateM.run_bind, Edit.run_addChild_of_lt hparent] at hrun
    refine (endsIn_addChild hparent name).bind ?_
    refine endsIn_addUntil (h.pushChild hparent name) (by rw [size_pushChild]; omega)
      (by rw [size_pushChild]; omega) hrun ?_
    -- the child the limited loop ends with has the index, so the limit has not stopped it
    have hgrown := (h.ensureChild hparent name index).1
    rw [hgrown.siblingIndex_of_findChild? (h.findChild?_ensureChild hparent name index),
      UInt32.lt_iff_toNat_lt, toNat_max_one]
    omega

/-- Every step starts from a node that the one before it has left in the tree. -/
theorem endsIn_ensureSteps {start : ℕ} (hstart : start < t.size) (steps : List Step) :
    EndsIn (ensureSteps start steps) t
      (.ok (t.ensureSteps start steps).2 (t.ensureSteps start steps).1) := by
  induction steps generalizing t start with
  | nil => exact endsIn_pure start
  | cons step steps ih =>
    cases step with
    | current | parent => exact ih h hstart
    | named name index =>
      obtain ⟨hchild, hlt⟩ := h.ensureChild hstart name index
      exact (endsIn_ensureChild h hstart name index).bind (ih hchild hlt)

omit h in
/-- A change of a node is made, or fails where there is no such node. -/
theorem endsIn_update (id : NodeId) (change : Node → Node) :
    EndsIn (do let _ ← lookUp id; overwrite id change) t
      (Edit.ending t ((t.update id change).map fun changed => (changed, ()))) := by
  rw [Tree.update]
  by_cases hid : id < t.size
  · obtain ⟨node, hnode⟩ := lt_size_iff.mp hid
    rw [node_eq_ok_iff.mpr hnode]
    exact (endsIn_lookUp hnode).bind (endsIn_overwrite hid change)
  · rw [node_eq_error (Nat.not_lt.mp hid)]
    exact (endsIn_lookUp_error (Nat.not_lt.mp hid)).bind_error _

/-- Every change that is asked for comes to an end. -/
theorem endsIn_change (change : Change) : EndsIn (Access.change change) t
    (Edit.ending t ((change.apply t).map fun changed => (changed, ()))) := by
  -- each change looks its node up before it changes the tree
  cases change with
  | addChild parent name =>
    rw [Change.apply, Tree.addChild]
    by_cases hparent : parent < t.size
    · obtain ⟨node, hnode⟩ := lt_size_iff.mp hparent
      rw [node_eq_ok_iff.mpr hnode]
      exact (endsIn_addChild hparent name).bind (endsIn_pure ())
    · rw [node_eq_error (Nat.not_lt.mp hparent)]
      exact ((endsIn_lookUp_error (Nat.not_lt.mp hparent)).bind_error _).bind_error _
  | addPath path =>
    rw [Change.apply, Tree.addPath, Access.change, Access.addPath]
    cases path.toAbsolute.normalize? with
    | none => exact (endsIn_failed _).bind_error _
    | some normal => exact (endsIn_ensureSteps h h.size_pos normal.steps).bind (endsIn_pure ())
  | setProperty id name values => exact endsIn_update id _
  | hide id => exact endsIn_update id _

end WellFormed

/-! ## Histories -/

/-- A handler runs in the tree that the failure leaves. -/
theorem run_tryCatch (access : Access α) (handle : Stop → Access α) :
    (tryCatch access handle).run.run t = (access.run.run t).bind fun
      | (.ok a, t') => .some (.ok a, t')
      | (.error stop, t') => (handle stop).run.run t' := by
  rw [ExceptT.run_tryCatch, StateT.run_bind, Part.bind_eq_bind]
  congr 1
  funext ⟨outcome, t'⟩
  cases outcome <;> rfl

theorem EndsIn.tryCatch_ok {access : Access α} {a : α} (h : EndsIn access t (.ok a t'))
    (handle : Stop → Access α) : EndsIn (tryCatch access handle) t (.ok a t') := by
  show (tryCatch access handle).run.run t = _
  rw [run_tryCatch, show access.run.run t = .some (.ok a, t') from h, Part.bind_some]

/-- What fails ends as its handler does. -/
theorem EndsIn.tryCatch_error {access : Access α} {e : NavigationError}
    (h : EndsIn access t (.error e t')) {handle : Stop → Access α} {a : α}
    (hhandle : EndsIn (handle (.failed e)) t' (.ok a t')) :
    EndsIn (tryCatch access handle) t (.ok a t') := by
  show (tryCatch access handle).run.run t = _
  rw [run_tryCatch, show access.run.run t = .some (.error (.failed e), t') from h, Part.bind_some]
  exact hhandle

/-- Every history comes to an end, and leaves the tree that is there after its changes. -/
theorem endsIn_changes (ht : Reachable t) (changes : List Change) :
    EndsIn (changeAll changes) t (.ok () (t.after changes)) := by
  induction changes generalizing t with
  | nil => exact endsIn_pure ()
  | cons change changes ih =>
    have hchange := endsIn_change ht.wellFormed change
    cases h : change.apply t with
    | ok changed =>
      rw [h] at hchange
      rw [after_cons_ok h]
      exact (hchange.tryCatch_ok _).bind (ih (ht.of_apply h))
    | error e =>
      rw [h] at hchange
      rw [after_cons_error h]
      exact (hchange.tryCatch_error (endsIn_pure ())).bind (ih ht)

end Access

/-- Every question about a tree, and every change of it, comes to an end without following a number out
of bounds. The answers are those of the tree. -/
structure StaysInBounds (t : Tree) : Prop where
  depth : ∀ id, (Access.depth id).EndsIn t (Access.answered t (t.depth id))
  ancestorAt : ∀ id d, (Access.ancestorAt id d).EndsIn t (Access.answered t (t.ancestorAt id d))
  parent : ∀ id, (Access.parent id).EndsIn t (Access.answered t (t.parent id))
  pathOf : ∀ id, (Access.pathOf id).EndsIn t (Access.answered t (t.pathOf id))
  resolve? : ∀ path, (Access.resolve? path).EndsIn t (.ok (t.resolve? path) t)
  change : ∀ change : Change, (Access.change change).EndsIn t
    (Edit.ending t ((change.apply t).map fun changed => (changed, ())))

/-- All accesses of a well-formed tree end in bounds. -/
theorem WellFormed.staysInBounds (h : t.WellFormed) : t.StaysInBounds where
  depth := Access.endsIn_depth h
  ancestorAt := Access.endsIn_ancestorAt h
  parent := Access.endsIn_parent h
  pathOf := Access.endsIn_pathOf h
  resolve? := Access.endsIn_resolve? h
  change := Access.endsIn_change h

/-- **What a tree stores is consistent, whatever its history.** Changes of the empty tree, made one after
the other, come to an end, whether each of them succeeds or fails. In the tree that is there after them
parents and lists of children tell the same, and every question about it and every further change comes
to an end as well; no access follows a stored number to where no node is. -/
theorem after_consistent (changes : List Change) :
    (Access.changeAll changes).EndsIn empty (.ok () (empty.after changes)) ∧
      (empty.after changes).Consistent ∧ (empty.after changes).StaysInBounds := by
  have ht : Reachable (empty.after changes) := reachable_iff_after.mpr ⟨changes, rfl⟩
  exact ⟨Access.endsIn_changes .empty changes, ht.consistent, ht.wellFormed.staysInBounds⟩

end ContentQuery.Tree
