import Mathlib
import ContentQuery.Tree.Navigation

/-! # Trees with rearranged values

A property holds its values in an order. Two trees differ in these orders alone if they have the same
nodes with the same properties, each with the same values. Any order of the values of any property
is the order in some such tree.
-/

namespace ContentQuery

open Naming

/-- The second node has the values of each property in some order. -/
structure Node.Rearranged (a b : Node) : Prop where
  name : b.name = a.name
  parent : b.parent = a.parent
  children : b.children = a.children
  hidden : b.hidden = a.hidden
  names : b.properties.names = a.properties.names
  values : ∀ name, (a.properties.values name).Perm (b.properties.values name)

theorem Node.Rearranged.refl (a : Node) : a.Rearranged a := ⟨rfl, rfl, rfl, rfl, rfl, fun _ => .rfl⟩

namespace Tree

variable {t t' : Tree}

/-- The second tree has the values of each property in some order. -/
def Rearranged (t t' : Tree) : Prop :=
  ∀ id : NodeId, Option.Rel Node.Rearranged t.nodes[id]? t'.nodes[id]?

theorem Rearranged.refl (t : Tree) : t.Rearranged t := by
  intro id
  cases t.nodes[id]? with
  | none => exact .none
  | some a => exact .some (.refl a)

/-! ## What is read -/

/-- The trees have the node, with its values in some order in the second one, or both lack it. -/
theorem Rearranged.node (h : t.Rearranged t') (id : NodeId) :
    (∃ a b, t.node id = .ok a ∧ t'.node id = .ok b ∧ a.Rearranged b) ∨
      (t.node id = .error (.noNode id) ∧ t'.node id = .error (.noNode id)) := by
  have hid := h id
  unfold Tree.node
  revert hid
  generalize t.nodes[id]? = a, t'.nodes[id]? = b
  rintro (hab | _)
  · exact .inl ⟨_, _, rfl, rfl, hab⟩
  · exact .inr ⟨rfl, rfl⟩

theorem Rearranged.nodeName (h : t.Rearranged t') (id : NodeId) :
    t'.nodeName id = t.nodeName id := by
  rw [Tree.nodeName, Tree.nodeName]
  obtain ⟨a, b, ha, hb, hab⟩ | ⟨ha, hb⟩ := h.node id
  · rw [ha, hb]
    exact congrArg Except.ok hab.name
  · rw [ha, hb]

/-- The names of properties and their order stay. -/
theorem Rearranged.propertyNames (h : t.Rearranged t') (id : NodeId) :
    t'.propertyNames id = t.propertyNames id := by
  rw [Tree.propertyNames, Tree.propertyNames]
  obtain ⟨a, b, ha, hb, hab⟩ | ⟨ha, hb⟩ := h.node id
  · rw [ha, hb]
    exact congrArg Except.ok hab.names
  · rw [ha, hb]

/-- The values of a property stay in another order. -/
theorem Rearranged.propertyValues (h : t.Rearranged t') {id : NodeId} {name : Name}
    {vs : List Value} (hvs : t.propertyValues id name = .ok vs) :
    ∃ vs', t'.propertyValues id name = .ok vs' ∧ vs.Perm vs' := by
  rw [Tree.propertyValues] at hvs ⊢
  obtain ⟨a, b, ha, hb, hab⟩ | ⟨ha, -⟩ := h.node id
  · rw [ha] at hvs
    cases hvs
    rw [hb]
    exact ⟨_, rfl, hab.values name⟩
  · rw [ha] at hvs
    cases hvs

end Tree

/-! ## Any order -/

theorem lookup_map_snd {α β : Type} [BEq α] [LawfulBEq α] (f : α → β → β) (k : α)
    (entries : List (α × β)) :
    (entries.map fun e => (e.1, f e.1 e.2)).lookup k = (entries.lookup k).map (f k) := by
  induction entries with
  | nil => rfl
  | cons e rest ih =>
    rw [List.map_cons, List.lookup_cons, List.lookup_cons]
    by_cases hk : k = e.1
    · subst hk
      simp
    · rw [beq_eq_false_iff_ne.mpr hk]
      exact ih

/-- The properties with other values for one of them, if it is there. -/
def Properties.withValues (p : Properties) (name : Name) (vs : List Value) : Properties :=
  ⟨p.entries.map fun e => (e.1, if e.1 = name then vs else e.2)⟩

/-- Giving a property other values adds none and drops none. -/
theorem Properties.names_withValues (p : Properties) (name : Name) (vs : List Value) :
    (p.withValues name vs).names = p.names := by
  simp [withValues, names, Function.comp_def]

/-- Its values are the new ones, and those of the others stay. -/
theorem Properties.values_withValues (p : Properties) {name : Name} {vs : List Value}
    (hvs : (p.values name).Perm vs) (other : Name) :
    (p.withValues name vs).values other = if other = name then vs else p.values other := by
  rw [values, withValues, lookup_map_snd (fun k ws => if k = name then vs else ws)]
  by_cases hname : other = name
  · subst hname
    cases hlookup : p.entries.lookup other with
    | none =>
      rw [values, hlookup] at hvs
      simp [List.nil_perm.mp hvs]
    | some ws => simp
  · simp [hname, values]

namespace Tree

/-- Every order of the values of a property is the one in some rearranged tree. -/
theorem exists_rearranged {t : Tree} {id : NodeId} {name : Name} {vs vs' : List Value}
    (hvs : t.propertyValues id name = .ok vs) (hperm : vs.Perm vs') :
    ∃ t', t.Rearranged t' ∧ t'.propertyValues id name = .ok vs' := by
  cases hnode : t.nodes[id]? with
  | none =>
    rw [propertyValues, node, hnode] at hvs
    cases hvs
  | some n =>
    rw [propertyValues, node, hnode] at hvs
    cases hvs
    -- the one property is overwritten, and all other nodes stay
    let changed (m : Node) : Node := { m with properties := m.properties.withValues name vs' }
    have hchanged : n.Rearranged (changed n) := by
      refine ⟨rfl, rfl, rfl, rfl, n.properties.names_withValues name vs', fun other => ?_⟩
      rw [n.properties.values_withValues hperm]
      split
      · next hname => exact hname ▸ hperm
      · exact .rfl
    refine ⟨⟨t.nodes.modify id changed⟩, fun other => ?_, ?_⟩
    · rw [Array.getElem?_modify]
      split
      · next hother =>
        subst hother
        rw [hnode]
        exact .some hchanged
      · exact Rearranged.refl t other
    · rw [propertyValues, node, Array.getElem?_modify, if_pos rfl, hnode]
      exact congrArg Except.ok
        ((n.properties.values_withValues hperm name).trans (if_pos rfl))

end Tree

end ContentQuery
