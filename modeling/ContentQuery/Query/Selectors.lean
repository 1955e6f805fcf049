import ContentQuery.Query.Error

/-!
# The selectors and full-text searches of a query

A query declares the selectors of its sources and refers to selectors everywhere else. It is valid
if it declares each selector once and refers only to declared ones.
-/

namespace ContentQuery

/-- The selectors a join condition refers to. -/
def JoinCondition.selectors : JoinCondition → List SelectorName
  | equal s₁ _ s₂ _ => [s₁, s₂]
  | sameNode s₁ s₂ _ => [s₁, s₂]
  | childNode child parent => [child, parent]
  | descendantNode descendant ancestor => [descendant, ancestor]

/-- The selectors a source declares, in order. -/
def Source.declared : Source → List SelectorName
  | selector _ s => [s]
  | join left right _ _ => left.declared ++ right.declared

/-- The selectors that the join conditions of a source refer to, inner joins first. -/
def Source.referenced : Source → List SelectorName
  | selector .. => []
  | join left right _ condition => left.referenced ++ right.referenced ++ condition.selectors

/-- The selectors a constraint refers to, in order. -/
def Constraint.selectors : Constraint → List SelectorName
  | and left right => left.selectors ++ right.selectors
  | or left right => left.selectors ++ right.selectors
  | not constraint => constraint.selectors
  | comparison left _ _ => [left.selector]
  | .exists s _ => [s]
  | fullText predicate => [predicate.selector]
  | structural _ s _ => [s]

/-- The full-text searches of a constraint, in order. -/
def Constraint.fullTextPredicates : Constraint → List FullTextPredicate
  | and left right => left.fullTextPredicates ++ right.fullTextPredicates
  | or left right => left.fullTextPredicates ++ right.fullTextPredicates
  | not constraint => constraint.fullTextPredicates
  | fullText predicate => [predicate]
  | _ => []

namespace Query

/-- The selectors a query declares, in order. -/
def declared (query : Query) : List SelectorName := query.source.declared

/-- The selectors a query refers to: in its source, its constraint, its orderings and
its columns. -/
def referenced (query : Query) : List SelectorName :=
  query.source.referenced ++ (query.constraint.map Constraint.selectors).getD [] ++
    query.orderings.map (·.operand.selector) ++ query.columns.map (·.operand.selector)

/-- The first selector that occurs a second time, `seen` having occurred before. -/
def firstRepeated? (seen : List SelectorName) : List SelectorName → Option SelectorName
  | [] => none
  | s :: rest => if s ∈ seen then some s else firstRepeated? (s :: seen) rest

/-- Check the selectors of a query: repeated declarations first, then unknown references. -/
def validate (query : Query) : Except QueryError Unit :=
  match firstRepeated? [] query.declared with
  | some s => .error (.duplicateSelector s)
  | none =>
    match query.referenced.find? fun s => s ∉ query.declared with
    | some s => .error (.unknownSelector s)
    | none => .ok ()

end Query

end ContentQuery
