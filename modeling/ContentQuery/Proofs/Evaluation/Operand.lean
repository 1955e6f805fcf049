import ContentQuery.Evaluation.Operand
import ContentQuery.Proofs.Tree.Ancestors

/-! # Operands of bound and unbound selectors

An operand reads the node of its selector first. Without a node it fails with that selector, however
deeply the operand is nested; with a node of the tree its property values can always be read.
-/

namespace ContentQuery.Context

open Naming

variable {ctx : Context} {tuple : NodeTuple} {s : SelectorName}

/-- Evaluation in a tree with the standard names and nothing else. -/
def ofTree (t : Tree) : Context := ⟨t, .standard, ⟨[]⟩, .lenient, FullText.termMatch, []⟩

theorem bound_eq_ok {n : NodeId} (hs : tuple.node? s = some n) : bound tuple s = .ok n := by
  rw [bound, hs]

theorem bound_eq_error (hs : tuple.node? s = none) :
    bound tuple s = .error (.selectorNotBound s) := by
  rw [bound, hs]

/-! ## Unbound selectors -/

/-- Properties of an unbound selector fail before the tree is looked at. -/
theorem propertyValues_of_unbound {operand : PropertyOperand}
    (hs : tuple.node? operand.selector = none) :
    ctx.propertyValues tuple operand = .error (.selectorNotBound operand.selector) := by
  rw [propertyValues, bound_eq_error hs]
  rfl

/-- Without the node of its selector no operand has values. -/
theorem values_of_unbound {operand : DynamicOperand} (hs : tuple.node? operand.selector = none) :
    ctx.values tuple operand = .error (.selectorNotBound operand.selector) := by
  induction operand with
  | property operand => exact propertyValues_of_unbound hs
  | length operand =>
    rw [values, propertyValues_of_unbound hs]
    rfl
  | nodeName s | localName s | score s =>
    have hbound : bound tuple s = .error (.selectorNotBound s) := bound_eq_error hs
    simp only [values, score, hbound]
    rfl
  | upper operand ih | lower operand ih =>
    rw [values, ih hs]
    rfl

/-! ## Nodes of the tree -/

/-- Every property of a node in the tree can be read, also one that it does not have. -/
theorem exists_values_of_node {n : NodeId} (hn : n < ctx.tree.size) (name : Name) :
    ∃ values, Eval.ofNavigation (ctx.tree.propertyValues n name) = .ok values := by
  obtain ⟨node, hnode⟩ := Tree.exists_node_eq_ok hn
  rw [Tree.propertyValues, hnode]
  exact ⟨_, rfl⟩

theorem exists_names_of_node {n : NodeId} (hn : n < ctx.tree.size) :
    ∃ names, Eval.ofNavigation (ctx.tree.propertyNames n) = .ok names := by
  obtain ⟨node, hnode⟩ := Tree.exists_node_eq_ok hn
  rw [Tree.propertyNames, hnode]
  exact ⟨_, rfl⟩

/-- The property values of a node of the tree can be read. -/
theorem exists_propertyValues {operand : PropertyOperand} {n : NodeId}
    (hs : tuple.node? operand.selector = some n) (hn : n < ctx.tree.size) :
    ∃ values, ctx.propertyValues tuple operand = .ok values := by
  rw [propertyValues, bound_eq_ok hs]
  obtain ⟨selector, property⟩ := operand
  cases property with
  | some name => exact exists_values_of_node hn name
  | none =>
    obtain ⟨names, hnames⟩ := exists_names_of_node hn
    obtain ⟨values, hvalues⟩ := exists_mapM_eq_ok fun name _ => exists_values_of_node hn name
    refine ⟨values.flatten, bind_eq_ok_iff.mpr ⟨n, rfl, ?_⟩⟩
    exact bind_eq_ok_iff.mpr ⟨names, hnames, bind_eq_ok_iff.mpr ⟨values, hvalues, rfl⟩⟩

end ContentQuery.Context
