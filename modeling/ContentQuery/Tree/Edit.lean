import ContentQuery.Tree.Navigation

/-!
# Changes in place

An edit works on the one tree there is. It writes over it step by step, and where it fails, the tree
stays behind as it was by then. Every edit looks for its node, or at its path, before it writes.
-/

namespace ContentQuery.Tree

open Naming

/-- A change in place. -/
abbrev Edit : Type → Type := EStateM NavigationError Tree

namespace Edit

/-- Fail unless there is a node with this number. -/
def require (id : NodeId) : Edit Unit := do
  match (← get).node id with
  | .ok _ => return ()
  | .error e => throw e

/-- Write over the node with a number. -/
def overwrite (id : NodeId) (change : Node → Node) : Edit Unit :=
  modify fun t => ⟨t.nodes.modify id change⟩

/-- Add a child. The new node is put behind all others and then listed with its parent. -/
def addChild (parent : NodeId) (name : Name) : Edit NodeId := do
  require parent
  let child := (← get).size
  modify fun t => ⟨t.nodes.push (.fresh name (some parent))⟩
  overwrite parent fun node => { node with children := node.children ++ [child] }
  return child

/-- Add children of one name behind the last one as long as that has too low an index, and a limited
number of them at most. Each has the next index, so an index is reached by as many children. -/
def addUntil (parent : NodeId) (name : Name) (index : UInt32) : Nat → NodeId → Edit NodeId
  | 0, last => return last
  | limit + 1, last => do
    if (← get).siblingIndex last < index then
      let next ← addChild parent name
      addUntil parent name index limit next
    else return last

/-- The child with a name and an index, after adding children of the name until there is one. -/
def ensureChild (parent : NodeId) (name : Name) (index : UInt32) : Edit NodeId := do
  match (← get).findChild? parent name index with
  | some child => return child
  | none =>
    let first ← addChild parent name
    addUntil parent name index index.toNat first

/-- The node that steps lead to from a node, after adding what is missing; only descents count. -/
def ensureSteps (start : NodeId) : List Step → Edit NodeId
  | [] => return start
  | .named name index :: rest => do
    let child ← ensureChild start name index
    ensureSteps child rest
  | _ :: rest => ensureSteps start rest

/-- The node at a path, after adding every missing node along it and every lower-numbered
namesake. -/
def addPath (path : Path) : Edit NodeId :=
  match path.toAbsolute.normalize? with
  | some normal => ensureSteps root normal.steps
  | none => throw (.noPath path)

/-- Give a property of a node its values. -/
def setProperty (id : NodeId) (name : Name) (values : List Value) : Edit Unit := do
  require id
  overwrite id fun node => { node with properties := node.properties.set name values }

/-- Keep paths from leading to a node. -/
def hide (id : NodeId) : Edit Unit := do
  require id
  overwrite id fun node => { node with hidden := true }

end Edit

end ContentQuery.Tree
