import ContentQuery.Proofs.Tree.Navigation

/-! # Walks in the tree

A walk takes steps from node to node, up to a parent or down to a child. A relative path is normalized
to climbs with descents behind them. Taken from the path of a node, the climbs take the last steps of
that path away, so what is left is the path of the ancestor as many steps up, with the descents behind
it; more climbs than the node is deep are not possible. So where nothing is hidden, the joined path
leads to the end of the walk.
-/

namespace ContentQuery

open Naming

namespace Tree

variable {t : Tree} {id last a : NodeId} {steps : List Step}

/-! ## Walks -/

/-- Steps lead from the first node to the second: up to the parent, or down to the child with a name
and an index. -/
inductive Walks (t : Tree) : NodeId → List Step → NodeId → Prop
  | done (id : NodeId) : Walks t id [] id
  | stay {id last : NodeId} {steps : List Step} (h : Walks t id steps last) :
      Walks t id (.current :: steps) last
  | up {id parent last : NodeId} {steps : List Step} (hp : t.IsParent id parent)
      (h : Walks t parent steps last) : Walks t id (.parent :: steps) last
  | down {id child last : NodeId} {steps : List Step} {name : Name} {index : UInt32}
      (hfind : t.findChild? id name index = some child) (h : Walks t child steps last) :
      Walks t id (.named name index :: steps) last

theorem walks_nil_iff : t.Walks id [] last ↔ last = id := by
  constructor
  · rintro ⟨⟩
    rfl
  · rintro rfl
    exact .done last

/-- A walk up goes on from the parent, if there is one. -/
theorem walks_parent_iff :
    t.Walks id (.parent :: steps) last ↔ ∃ parent, t.IsParent id parent ∧ t.Walks parent steps last := by
  constructor
  · rintro (_ | _ | ⟨hp, h⟩)
    exact ⟨_, hp, h⟩
  · rintro ⟨parent, hp, h⟩
    exact .up hp h

/-- Where nothing is hidden, walks down are what paths lead along. -/
theorem walks_iff_descend? (hshown : ∀ id, t.isHidden id = false)
    (hsteps : Descents steps) : t.Walks id steps last ↔ t.descend? id steps = some last := by
  -- step by step, there being nothing hidden that the descent would refuse
  induction steps generalizing id with
  | nil => rw [walks_nil_iff, descend?, Option.some.injEq, eq_comm]
  | cons step steps ih =>
    rw [descents_cons_iff] at hsteps
    obtain ⟨⟨name, index, rfl⟩, hsteps⟩ := hsteps
    rw [descend?]
    constructor
    · rintro (_ | _ | _ | ⟨hfind, h⟩)
      simp only [hfind, hshown, Bool.false_eq_true, if_false]
      exact (ih hsteps).mp h
    · intro hdescend
      split at hdescend
      · next child hfind =>
        simp only [hshown, Bool.false_eq_true, if_false] at hdescend
        exact .down hfind ((ih hsteps).mpr hdescend)
      · cases hdescend

/-- Climbs lead to the ancestor that is as many steps less deep. -/
theorem WellFormed.walks_climbs_iff (h : t.WellFormed) (k : ℕ) :
    t.Walks id (List.replicate k .parent ++ steps) last ↔
      ∃ a ∈ t.lineage id, t.depthOf a + k = t.depthOf id ∧ t.Walks a steps last := by
  -- every step up goes to the next node of the lineage
  induction k generalizing id with
  | zero =>
    constructor
    · exact fun hwalk => ⟨id, mem_lineage_self id, rfl, hwalk⟩
    · rintro ⟨a, ha, hdepth, hwalk⟩
      exact h.eq_of_depthOf_eq ha hdepth ▸ hwalk
  | succ k ih =>
    rw [List.replicate_succ, List.cons_append, walks_parent_iff]
    constructor
    · rintro ⟨parent, hp, hwalk⟩
      obtain ⟨a, ha, hdepth, hwalk⟩ := ih.mp hwalk
      refine ⟨a, ?_, ?_, hwalk⟩
      · rw [h.lineage_of_parentOf? hp]
        exact List.mem_cons_of_mem _ ha
      · rw [h.depthOf_of_parent hp]
        omega
    · rintro ⟨a, ha, hdepth, hwalk⟩
      obtain rfl | ⟨parent, hp, ha⟩ := h.mem_lineage_cases ha
      · omega
      · have hparent := h.depthOf_of_parent hp
        exact ⟨parent, hp, ih.mpr ⟨a, ha, by omega, hwalk⟩⟩

/-! ## Paths taken from a node -/

/-- Where nothing is hidden, the first steps to a node with others behind them lead where a walk does
that climbs for the steps left out and then descends. -/
theorem WellFormed.descend?_take_stepsTo (h : t.WellFormed) (hshown : ∀ id, t.isHidden id = false)
    (hcount : ∀ id, (t.children id).length < 2 ^ 32) (hid : id < t.size) {k : ℕ}
    (hk : k ≤ t.depthOf id) {down : List Step} (hdown : Descents down) :
    t.descend? root ((t.stepsTo id).take (t.depthOf id - k) ++ down) = some last ↔
      t.Walks id (List.replicate k .parent ++ down) last := by
  obtain ⟨a, ha, hdepth⟩ := h.exists_mem_lineage (Nat.sub_le (t.depthOf id) k)
  have hasize := h.lt_size_of_mem_lineage hid ha
  rw [← hdepth, ← h.stepsTo_eq_take ha, descend?_append,
    h.descend?_stepsTo hcount hasize (fun b _ => hshown b), Option.bind_some,
    ← walks_iff_descend? hshown hdown, h.walks_climbs_iff]
  constructor
  · exact fun hwalk => ⟨a, ha, by omega, hwalk⟩
  · rintro ⟨b, hb, hdepthb, hwalk⟩
    rwa [h.eq_of_mem_lineage ha hb (by omega)]

end Tree

end ContentQuery
