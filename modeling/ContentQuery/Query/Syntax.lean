import ContentQuery.Value.Comparison

/-!
# Queries

A query names its sources by selectors, joins them, restricts the tuples of nodes by a constraint,
and sorts and projects what remains. The parts are plain data; names and paths in them are qualified
already.
-/

namespace ContentQuery

open Naming

/-- The name a query gives to one of its sources. -/
structure SelectorName where
  text : String
  deriving DecidableEq

/-- The name of a variable that gets its values when the query is run. -/
structure VariableName where
  text : String
  deriving DecidableEq

/-- An operand that does not depend on the nodes. -/
inductive StaticOperand
  | literal (value : Value)
  | variable (name : VariableName)
  deriving DecidableEq

/-- A property of a selector's node, or all its properties. -/
structure PropertyOperand where
  selector : SelectorName
  property : Option Name
  deriving DecidableEq

/-- An operand whose values come from a node. -/
inductive DynamicOperand
  | property (operand : PropertyOperand)
  | length (operand : PropertyOperand)
  | nodeName (selector : SelectorName)
  | localName (selector : SelectorName)
  | score (selector : SelectorName)
  | upper (operand : DynamicOperand)
  | lower (operand : DynamicOperand)
  deriving DecidableEq

/-- The selector whose node an operand reads. -/
def DynamicOperand.selector : DynamicOperand → SelectorName
  | property operand => operand.selector
  | length operand => operand.selector
  | nodeName s => s
  | localName s => s
  | score s => s
  | upper operand => operand.selector
  | lower operand => operand.selector

/-- How a node can stand to another one. -/
inductive NodeRelation
  | same | child | descendant
  deriving DecidableEq

/-- A full-text search for an expression, in one property of a node or in all. -/
structure FullTextPredicate where
  selector : SelectorName
  property : Option Name
  expression : StaticOperand
  deriving DecidableEq

/-- A condition on a tuple of nodes. -/
inductive Constraint
  | and (left right : Constraint)
  | or (left right : Constraint)
  | not (constraint : Constraint)
  | comparison (left : DynamicOperand) (operator : Operator) (right : StaticOperand)
  | exists (selector : SelectorName) (property : Name)
  | fullText (predicate : FullTextPredicate)
  | structural (relation : NodeRelation) (selector : SelectorName) (path : Path)
  deriving DecidableEq

/-- Whether a constraint is a conjunction or disjunction, which stand in parentheses
inside others. -/
def Constraint.isCompound : Constraint → Bool
  | and .. | or .. => true
  | _ => false

/-- The condition between the two sides of a join. -/
inductive JoinCondition
  | equal (selector₁ : SelectorName) (property₁ : Name)
      (selector₂ : SelectorName) (property₂ : Name)
  /-- The first node is the second one, or the node that a path leads to from it. -/
  | sameNode (selector₁ selector₂ : SelectorName) (path : Option Path)
  | childNode (child parent : SelectorName)
  | descendantNode (descendant ancestor : SelectorName)
  deriving DecidableEq

/-- Which tuples of a join are kept. -/
inductive JoinType
  | inner | leftOuter | rightOuter
  deriving DecidableEq

/-- Where the nodes of a query come from. -/
inductive Source
  | selector (nodeType : Name) (selector : SelectorName)
  | join (left right : Source) (type : JoinType) (condition : JoinCondition)
  deriving DecidableEq

/-- Whether a source is a join. -/
def Source.isJoin : Source → Bool
  | join .. => true
  | selector .. => false

/-- The direction in which results are sorted. -/
inductive Direction
  | ascending | descending
  deriving DecidableEq

/-- One criterion by which results are sorted. -/
structure SortCriterion where
  operand : DynamicOperand
  direction : Direction
  deriving DecidableEq

/-- One column of the result: a property or all properties of a selector's node, and maybe a name
for it. -/
structure Column where
  operand : PropertyOperand
  label : Option String
  deriving DecidableEq

/-- A query. -/
structure Query where
  source : Source
  constraint : Option Constraint
  orderings : List SortCriterion
  columns : List Column
  deriving DecidableEq

end ContentQuery
