import ContentQuery.Query.Syntax

/-!
# The policy for unbound selectors

A tuple may leave selectors without a node. A condition that reads one of them is then not
satisfied, unless the selector is required: then it is an error.
-/

namespace ContentQuery

/-- Which selectors must be bound. -/
structure Policy where
  /-- Whether all of them must. -/
  strict : Bool
  /-- The selectors that must, in increasing order. -/
  required : List SelectorName
  deriving DecidableEq

namespace Policy

/-- The policy that requires nothing. -/
def lenient : Policy := ⟨false, []⟩

/-- Put a selector in its place among others, unless it is there already. -/
def insertSelector (s : SelectorName) : List SelectorName → List SelectorName
  | [] => [s]
  | other :: rest =>
    match compare s.text other.text with
    | .lt => s :: other :: rest
    | .eq => other :: rest
    | .gt => other :: insertSelector s rest

/-- Require one more selector. -/
def require (policy : Policy) (s : SelectorName) : Policy :=
  { policy with required := insertSelector s policy.required }

/-- Require selectors. -/
def requireAll (policy : Policy) (selectors : List SelectorName) : Policy :=
  selectors.foldl require policy

/-- Whether a selector must be bound. -/
def isRequired (policy : Policy) (s : SelectorName) : Bool :=
  policy.strict || policy.required.contains s

end Policy

end ContentQuery
