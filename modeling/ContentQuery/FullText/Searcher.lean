import ContentQuery.FullText.Expression
import ContentQuery.Query.Syntax
import ContentQuery.Tree.Navigation

/-!
# Searching nodes

A searcher decides whether a node matches an expression and scores it. `termMatch` looks at the
string values of the node; `unavailable` stands for the lack of a searcher.
-/

namespace ContentQuery.FullText

open Naming Number

/-- Why a search gives no answer. -/
inductive SearchError
  | invalidExpression (expression : String) (fault : Fault) (rest : String)
  /-- There is no searcher for this selector. -/
  | unavailable (selector : SelectorName)
  | index (cause : NavigationError)
  deriving DecidableEq

/-- The error in words. -/
def SearchError.message : SearchError → String
  | invalidExpression expression fault rest =>
    "Invalid full-text expression '" ++ expression ++ "': " ++ fault.message rest
  | unavailable selector =>
    "Full-text search is not available: no full-text searcher configured (selector '" ++
      selector.text ++ "')"
  | index cause => "Full-text index error: " ++ cause.message

/-- A node to be searched, in one property or in all, for an expression. -/
structure Request where
  selector : SelectorName
  node : NodeId
  property : Option Name
  expression : String

/-- Something that can search nodes. -/
structure Searcher where
  search : Tree → Request → Except SearchError Bool
  score : Tree → Request → Except SearchError Double

/-- Read an expression. -/
def readExpression (expression : String) : Except SearchError Query :=
  (Query.read expression).mapError fun (fault, rest) => .invalidExpression expression fault rest

/-- The text of the string values among values, each with a space behind it. -/
def textOfValues (values : List Value) : String :=
  String.join (values.map fun v =>
    match v with
    | .string text => text ++ " "
    | _ => "")

/-- The text of a node that a search looks at. -/
def textOfNode (tree : Tree) (node : NodeId) (property : Option Name) :
    Except SearchError String := do
  let names ← match property with
    | some name => .ok [name]
    | none => (tree.propertyNames node).mapError .index
  let values ← names.mapM fun name => (tree.propertyValues node name).mapError .index
  return textOfValues values.flatten

/-- The searcher that looks for the words of an expression in the string values of a node. -/
def termMatch : Searcher where
  search tree request := do
    let query ← readExpression request.expression
    return query.isMatch (← textOfNode tree request.node request.property)
  score tree request := do
    let query ← readExpression request.expression
    return query.score (← textOfNode tree request.node request.property)

/-- The lack of a searcher: searches fail and scores are zero. -/
def unavailable : Searcher where
  search _ request := .error (.unavailable request.selector)
  score _ _ := .ok .zero

end ContentQuery.FullText
