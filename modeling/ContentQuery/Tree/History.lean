import ContentQuery.Tree.Basic

/-!
# Histories

A history is a row of changes that are asked for. Each of them is made, or fails and leaves the tree as
it is, and the next one is asked for all the same.
-/

namespace ContentQuery.Tree

open Naming

/-- A change that is asked for. -/
inductive Change
  | addChild (parent : NodeId) (name : Name)
  | addPath (path : Path)
  | setProperty (id : NodeId) (name : Name) (values : List Value)
  | hide (id : NodeId)

/-- The tree that a change makes of one. -/
def Change.apply (t : Tree) : Change → Except NavigationError Tree
  | addChild parent name => (t.addChild parent name).map Prod.fst
  | addPath path => (t.addPath path).map Prod.fst
  | setProperty id name values => t.setProperty id name values
  | hide id => t.hide id

/-- The tree that is there after changes. -/
def after (t : Tree) : List Change → Tree
  | [] => t
  | change :: rest =>
    match change.apply t with
    | .ok changed => changed.after rest
    | .error _ => t.after rest

end ContentQuery.Tree
