import ContentQuery.Value.Basic

/-!
# The content tree

A tree is an array of nodes; a node is known by its place in it, and the root is node 0. Children
are listed in the order they were added, and a node is added behind all others, so the parent of a
node always has a smaller number. Siblings may share a name; they are told apart by counting from
one.

`addChild`, `addPath`, `setProperty` and `hide` change a tree.
-/

namespace ContentQuery

open Naming

/-- The number of a node. -/
abbrev NodeId := Nat

/-- Why a node cannot be found. -/
inductive NavigationError
  /-- There is no node with this number. -/
  | noNode (id : NodeId)
  /-- The path climbs above the root. -/
  | noPath (path : Path)
  deriving DecidableEq

/-- The error in words. -/
def NavigationError.message : NavigationError → String
  | noNode id => "Node not found: node #" ++ Number.decimalText id
  | noPath path => "Node not found: " ++ path.expanded

/-- The properties of a node: names in increasing order, each with its values. -/
structure Properties where
  entries : List (Name × List Value)

namespace Properties

/-- The values of a property; none if the node lacks it. -/
def values (p : Properties) (name : Name) : List Value := (p.entries.lookup name).getD []

/-- The names of all properties. -/
def names (p : Properties) : List Name := p.entries.map Prod.fst

/-- Put an entry in its place, over the entry of the same name. -/
def setEntry (name : Name) (values : List Value) :
    List (Name × List Value) → List (Name × List Value)
  | [] => [(name, values)]
  | entry :: rest =>
    match compare name entry.1 with
    | .lt => (name, values) :: entry :: rest
    | .eq => (name, values) :: rest
    | .gt => entry :: setEntry name values rest

/-- Give a property its values. -/
def set (p : Properties) (name : Name) (values : List Value) : Properties :=
  ⟨setEntry name values p.entries⟩

end Properties

/-- A node of the tree. -/
structure Node where
  name : Name
  parent : Option NodeId
  children : List NodeId
  properties : Properties
  hidden : Bool

/-- A new node. -/
def Node.fresh (name : Name) (parent : Option NodeId) : Node := ⟨name, parent, [], ⟨[]⟩, false⟩

/-- A tree of nodes. -/
structure Tree where
  nodes : Array Node

namespace Tree

/-- The tree of a root alone. -/
def empty : Tree := ⟨#[.fresh .empty none]⟩

/-- The root. -/
def root : NodeId := 0

/-- The number of nodes. -/
def size (t : Tree) : Nat := t.nodes.size

/-- The node with a number. -/
def node (t : Tree) (id : NodeId) : Except NavigationError Node :=
  match t.nodes[id]? with
  | some node => .ok node
  | none => .error (.noNode id)

/-- The children of a node; none if there is no such node. -/
def children (t : Tree) (id : NodeId) : List NodeId := (t.nodes[id]?.map Node.children).getD []

/-- Whether a node exists and has a name. -/
def hasName (t : Tree) (name : Name) (id : NodeId) : Bool :=
  (t.nodes[id]?.map fun node => node.name == name).getD false

/-- The children of a node with a name, in the order they were added. -/
def namesakes (t : Tree) (parent : NodeId) (name : Name) : List NodeId :=
  (t.children parent).filter (t.hasName name)

/-- The child with a name and an index; an index of zero means the first. -/
def findChild? (t : Tree) (parent : NodeId) (name : Name) (index : UInt32) : Option NodeId :=
  (t.namesakes parent name)[index.toNat - 1]?

/-! ## Changes -/

/-- Put a new node behind all others and under a parent. -/
def pushChild (t : Tree) (parent : NodeId) (name : Name) : Tree :=
  ⟨(t.nodes.modify parent fun node =>
      { node with children := node.children ++ [t.nodes.size] }).push (.fresh name (some parent))⟩

/-- Add a child. -/
def addChild (t : Tree) (parent : NodeId) (name : Name) :
    Except NavigationError (Tree × NodeId) := do
  let _ ← t.node parent
  return (t.pushChild parent name, t.size)

/-- Add a number of children of one name. -/
def pushChildren (t : Tree) (parent : NodeId) (name : Name) : Nat → Tree
  | 0 => t
  | n + 1 => (t.pushChild parent name).pushChildren parent name n

/-- The child with a name and an index, after adding as many namesakes as it takes. -/
def ensureChild (t : Tree) (parent : NodeId) (name : Name) (index : UInt32) : Tree × NodeId :=
  match t.findChild? parent name index with
  | some child => (t, child)
  | none =>
    let missing := max index.toNat 1 - (t.namesakes parent name).length
    (t.pushChildren parent name missing, t.size + missing - 1)

/-- The node that steps lead to from a node, after adding what is missing; only descents count. -/
def ensureSteps (t : Tree) (start : NodeId) : List Step → Tree × NodeId
  | [] => (t, start)
  | .named name index :: rest =>
    (t.ensureChild start name index).1.ensureSteps (t.ensureChild start name index).2 rest
  | _ :: rest => t.ensureSteps start rest

/-- The node at a path, after adding every missing node along it and every
lower-numbered namesake. -/
def addPath (t : Tree) (path : Path) : Except NavigationError (Tree × NodeId) :=
  match path.toAbsolute.normalize? with
  | some normal => .ok (t.ensureSteps root normal.steps)
  | none => .error (.noPath path)

/-- Change the node with a number. -/
def update (t : Tree) (id : NodeId) (change : Node → Node) : Except NavigationError Tree := do
  let _ ← t.node id
  return ⟨t.nodes.modify id change⟩

/-- Give a property of a node its values. -/
def setProperty (t : Tree) (id : NodeId) (name : Name) (values : List Value) :
    Except NavigationError Tree :=
  t.update id fun node => { node with properties := node.properties.set name values }

/-- Keep paths from leading to a node. -/
def hide (t : Tree) (id : NodeId) : Except NavigationError Tree :=
  t.update id fun node => { node with hidden := true }

end Tree

end ContentQuery
