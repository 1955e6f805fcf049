import ContentQuery.Tree.History
import ContentQuery.Tree.Navigation
import Mathlib.Data.PFun

/-!
# Following stored numbers

Nodes know each other by number. A number from outside is looked up, and it is an error if there is no
such node; a number that is stored with a node is followed as it is, and has to be that of a node. The
loops that go from parent to parent, or add namesakes until there are enough, stop nowhere else. So an
access to the tree gives a result, fails, runs out of bounds, or never ends. Questions and changes are
as in the tree itself, with every access made step by step.
-/

namespace ContentQuery.Tree

open Naming

/-- Why an access stops without a result. -/
inductive Stop
  | failed (cause : NavigationError)
  /-- A number was followed that is not that of a node. -/
  | outOfBounds (id : NodeId)

/-- An access to the one tree there is, which may change it. There is nothing where it never ends. -/
abbrev Access : Type → Type := ExceptT Stop (StateT Tree Part)

namespace Access

/-- Take turns until one gives a result. Another one gives what to go on with. -/
def loop {σ α : Type} (turn : σ → Access (α ⊕ σ)) (start : σ) : Access α :=
  ExceptT.mk fun t => PFun.fix (fun (state, t) => ((turn state).run.run t).map fun
    | (.ok (.inl result), t) => .inl (.ok result, t)
    | (.ok (.inr next), t) => .inr (next, t)
    | (.error stop, t) => .inl (.error stop, t)) (start, t)

/-- The node with a number from outside. -/
def lookUp (id : NodeId) : Access Node := do
  match (← get).node id with
  | .ok node => return node
  | .error e => throw (.failed e)

/-- The node with a stored number. -/
def fetch (id : NodeId) : Access Node := do
  match (← get).nodes[id]? with
  | some node => return node
  | none => throw (.outOfBounds id)

/-- Write over the node with a stored number. -/
def overwrite (id : NodeId) (change : Node → Node) : Access Unit := do
  let _ ← fetch id
  modify fun t => ⟨t.nodes.modify id change⟩

/-! ## Children -/

/-- The first of some children with a name, when as many of them as told have been passed. -/
def nthNamed? (name : Name) : List NodeId → Nat → Access (Option NodeId)
  | [], _ => return none
  | child :: rest, count => do
    if (← fetch child).name == name then
      match count with
      | 0 => return some child
      | count + 1 => nthNamed? name rest count
    else nthNamed? name rest count

/-- The child with a name and an index; an index of zero means the first. -/
def findChild? (parent : NodeId) (name : Name) (index : UInt32) : Access (Option NodeId) := do
  nthNamed? name (← fetch parent).children (index.toNat - 1)

/-- The place of a node among those of some children that have a name. -/
def placeNamed? (name : Name) (id : NodeId) : List NodeId → Access (Option Nat)
  | [] => return none
  | child :: rest => do
    if (← fetch child).name == name then
      if child = id then return some 0
      else
        let place ← placeNamed? name id rest
        return place.map (· + 1)
    else placeNamed? name id rest

/-- The place of a node among its siblings of the same name, counted from one. -/
def siblingIndex (id : NodeId) : Access UInt32 := do
  let node ← fetch id
  match node.parent with
  | none => return 1
  | some parent =>
    let place ← placeNamed? node.name id (← fetch parent).children
    return UInt32.ofNat (place.getD 0) + 1

/-! ## Parents -/

/-- Count a parent and go on with the one above it. -/
def countParent : Option NodeId × Nat → Access (Nat ⊕ Option NodeId × Nat)
  | (none, count) => return .inl count
  | (some id, count) => return .inr ((← fetch id).parent, count + 1)

/-- The number of steps from the root. -/
def depth (id : NodeId) : Access Nat := do
  loop countParent ((← lookUp id).parent, 0)

/-- The node that a number of steps from parent to parent lead to. -/
def climb? (id : NodeId) : Nat → Access (Option NodeId)
  | 0 => return some id
  | count + 1 => do
    match (← fetch id).parent with
    | some parent => climb? parent count
    | none => return none

/-- The ancestor at a depth, if the node is that deep. -/
def ancestorAt (id : NodeId) (depth : Nat) : Access (Option NodeId) := do
  let own ← Access.depth id
  if own < depth then return none else climb? id (own - depth)

/-- The parent as told by the depth: none for the root. -/
def parent (id : NodeId) : Access (Option NodeId) := do
  match ← depth id with
  | 0 => return none
  | depth + 1 => ancestorAt id depth

/-- Put the step that leads to a node in front of others and go on with its parent. -/
def collectStep : NodeId × List Step → Access (List Step ⊕ NodeId × List Step)
  | (id, steps) => do
    match (← lookUp id).parent with
    | none => return .inl steps
    | some parent =>
      let step := Step.child (← fetch id).name (← siblingIndex id)
      return .inr (parent, step :: steps)

/-- The path of a node. -/
def pathOf (id : NodeId) : Access Path := do
  return ⟨true, ← loop collectStep (id, [])⟩

/-! ## Paths -/

/-- The node that steps lead down to, if all nodes on the way exist and show. -/
def descend? (start : NodeId) : List Step → Access (Option NodeId)
  | [] => return some start
  | .named name index :: rest => do
    match ← findChild? start name index with
    | some child => if (← fetch child).hidden then return none else descend? child rest
    | none => return none
  | _ :: _ => return none

/-- The node a path leads to from the root. -/
def resolve? (path : Path) : Access (Option NodeId) :=
  match path.toAbsolute.normalize? with
  | some normal => descend? root normal.steps
  | none => return none

/-! ## Changes -/

/-- Add a child. -/
def addChild (parent : NodeId) (name : Name) : Access NodeId := do
  let _ ← lookUp parent
  let child := (← get).size
  modify fun t => ⟨t.nodes.push (.fresh name (some parent))⟩
  overwrite parent fun node => { node with children := node.children ++ [child] }
  return child

/-- Add a child of a name behind the last one and go on with it, if that has too low an index. -/
def addNext (parent : NodeId) (name : Name) (index : UInt32) (last : NodeId) :
    Access (NodeId ⊕ NodeId) := do
  if (← siblingIndex last) < index then return .inr (← addChild parent name)
  else return .inl last

/-- The child with a name and an index, after adding children of the name until there is one. -/
def ensureChild (parent : NodeId) (name : Name) (index : UInt32) : Access NodeId := do
  match ← findChild? parent name index with
  | some child => return child
  | none => loop (addNext parent name index) (← addChild parent name)

/-- The node that steps lead to from a node, after adding what is missing; only descents count. -/
def ensureSteps (start : NodeId) : List Step → Access NodeId
  | [] => return start
  | .named name index :: rest => do
    let child ← ensureChild start name index
    ensureSteps child rest
  | _ :: rest => ensureSteps start rest

/-- The node at a path, after adding every missing node along it and every lower-numbered
namesake. -/
def addPath (path : Path) : Access NodeId :=
  match path.toAbsolute.normalize? with
  | some normal => ensureSteps root normal.steps
  | none => throw (.failed (.noPath path))

/-- Give a property of a node its values. -/
def setProperty (id : NodeId) (name : Name) (values : List Value) : Access Unit := do
  let _ ← lookUp id
  overwrite id fun node => { node with properties := node.properties.set name values }

/-- Keep paths from leading to a node. -/
def hide (id : NodeId) : Access Unit := do
  let _ ← lookUp id
  overwrite id fun node => { node with hidden := true }

/-! ## Histories -/

/-- A change made step by step. -/
def change : Change → Access Unit
  | .addChild parent name => do let _ ← addChild parent name
  | .addPath path => do let _ ← addPath path
  | .setProperty id name values => setProperty id name values
  | .hide id => hide id

/-- Changes made one after the other. One that fails is passed over. -/
def changeAll : List Change → Access Unit
  | [] => return ()
  | first :: rest => do
    tryCatch (change first) fun stop =>
      match stop with
      | .failed _ => return ()
      | .outOfBounds _ => throw stop
    changeAll rest

end Access

end ContentQuery.Tree
