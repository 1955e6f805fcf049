import ContentQuery.Tree.Basic

/-!
# Finding one's way in the tree

The lineage of a node is the node, its parent, and so on up to the root. Depth, ancestors and paths
are all read off it. `resolve?` goes the other way, down a path, and passes no hidden node.
-/

namespace ContentQuery.Tree

open Naming

/-- The node, its parent, and so on; a parent always has the smaller number. -/
def lineage (t : Tree) (id : NodeId) : List NodeId :=
  match t.nodes[id]?.bind Node.parent with
  | some parent => if parent < id then id :: t.lineage parent else [id]
  | none => [id]
termination_by id

/-- The number of steps from the root. -/
def depth (t : Tree) (id : NodeId) : Except NavigationError Nat := do
  let _ ← t.node id
  return (t.lineage id).length - 1

/-- The node of the lineage at a depth, if it is that deep. -/
def ancestorAt (t : Tree) (id : NodeId) (depth : Nat) : Except NavigationError (Option NodeId) := do
  let _ ← t.node id
  return (t.lineage id).reverse[depth]?

/-- The parent as told by the depth: none for the root. -/
def parent (t : Tree) (id : NodeId) : Except NavigationError (Option NodeId) := do
  match ← t.depth id with
  | 0 => return none
  | depth + 1 => t.ancestorAt id depth

/-- The place of a node among its siblings of the same name, counted from one. -/
def siblingIndex (t : Tree) (id : NodeId) : UInt32 :=
  match t.nodes[id]? with
  | some ⟨name, some parent, _, _, _⟩ =>
    UInt32.ofNat (((t.namesakes parent name).idxOf? id).getD 0) + 1
  | _ => 1

/-- The step that leads from its parent to a node. -/
def stepTo (t : Tree) (id : NodeId) : Step :=
  .child ((t.nodes[id]?.map Node.name).getD .empty) (t.siblingIndex id)

/-- The path of a node. -/
def pathOf (t : Tree) (id : NodeId) : Except NavigationError Path := do
  let _ ← t.node id
  return ⟨true, (t.lineage id).dropLast.reverse.map t.stepTo⟩

/-- The name of a node. -/
def nodeName (t : Tree) (id : NodeId) : Except NavigationError Name := do
  return (← t.node id).name

/-- The name of a node as told by its path. -/
def nodeNameOfPath (t : Tree) (id : NodeId) : Except NavigationError Name := do
  return (← t.pathOf id).name?.getD .empty

/-- The values of a property. -/
def propertyValues (t : Tree) (id : NodeId) (name : Name) :
    Except NavigationError (List Value) := do
  return (← t.node id).properties.values name

/-- The names of all properties, in increasing order. -/
def propertyNames (t : Tree) (id : NodeId) : Except NavigationError (List Name) := do
  return (← t.node id).properties.names

/-- Whether a node is marked as hidden. -/
def isHidden (t : Tree) (id : NodeId) : Bool := (t.nodes[id]?.map Node.hidden).getD false

/-- The node that steps lead down to, if all nodes on the way exist and show. -/
def descend? (t : Tree) (start : NodeId) : List Step → Option NodeId
  | [] => some start
  | .named name index :: rest =>
    match t.findChild? start name index with
    | some child => if t.isHidden child then none else t.descend? child rest
    | none => none
  | _ :: _ => none

/-- The node a path leads to from the root. -/
def resolve? (t : Tree) (path : Path) : Option NodeId :=
  path.toAbsolute.normalize?.bind fun normal => t.descend? root normal.steps

end ContentQuery.Tree
