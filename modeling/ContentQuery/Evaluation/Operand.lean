import ContentQuery.Evaluation.Error
import ContentQuery.Evaluation.Policy
import ContentQuery.Query.Selectors

/-!
# The values of operands

Evaluation reads a tree, a registry, the values of variables, a policy and a searcher, together the
*context*, and a tuple that binds selectors to nodes. It changes nothing, so its outcome is a
function of these.
-/

namespace ContentQuery

open Naming Number Text

/-- A candidate row: the node of each selector, or that it has none. -/
structure NodeTuple where
  entries : List (SelectorName × Option NodeId)

/-- The node of a selector. -/
def NodeTuple.node? (tuple : NodeTuple) (s : SelectorName) : Option NodeId :=
  (tuple.entries.lookup s).join

/-- The values of variables. -/
structure Bindings where
  entries : List (VariableName × List Value)

/-- The values of a variable. -/
def Bindings.values? (bindings : Bindings) (v : VariableName) : Option (List Value) :=
  bindings.entries.lookup v

/-- What an evaluation reads besides the tuple. -/
structure Context where
  tree : Tree
  names : Registry
  bindings : Bindings
  policy : Policy
  searcher : FullText.Searcher
  /-- The full-text searches that scores are taken from. -/
  predicates : List FullTextPredicate

/-- What evaluating gives: a result or the reason why there is none. -/
abbrev Eval := Except EvalError

namespace Eval

/-- A result of moving about in the tree. -/
def ofNavigation {α : Type} (result : Except NavigationError α) : Eval α :=
  result.mapError .navigation

/-- A result of reading or writing a name or path. -/
def ofResolve {α : Type} (result : Except ResolveError α) : Eval α :=
  result.mapError .unresolvableName

/-- A result of a search. -/
def ofSearch {α : Type} (result : Except FullText.SearchError α) : Eval α :=
  result.mapError .fullText

end Eval

namespace Context

/-- The node bound to a selector. -/
def bound (tuple : NodeTuple) (s : SelectorName) : Eval NodeId :=
  match tuple.node? s with
  | some node => .ok node
  | none => .error (.selectorNotBound s)

/-- The values of a static operand. -/
def staticValues (ctx : Context) : StaticOperand → Eval (List Value)
  | .literal v => .ok [v]
  | .variable v =>
    match ctx.bindings.values? v with
    | some values => .ok values
    | none => .error (.unknownVariable v)

/-- The one value of a static operand, if it has any; several are an error. -/
def singleValue (ctx : Context) (operand : StaticOperand) : Eval (Option Value) := do
  match ← ctx.staticValues operand with
  | [] => return none
  | [v] => return some v
  | values => throw (.multipleValues values.length)

/-- The text of a value. -/
def lexical (ctx : Context) (v : Value) : Eval String := .ofResolve (v.lexical ctx.names)

/-- The values of a property, or of all properties in the order of their names. -/
def propertyValues (ctx : Context) (tuple : NodeTuple) (operand : PropertyOperand) :
    Eval (List Value) := do
  let node ← bound tuple operand.selector
  match operand.property with
  | some name => .ofNavigation (ctx.tree.propertyValues node name)
  | none => do
    let names ← Eval.ofNavigation (ctx.tree.propertyNames node)
    let values ← names.mapM fun name => Eval.ofNavigation (ctx.tree.propertyValues node name)
    return values.flatten

/-- The length of a value: the bytes of a binary, the characters of any other text. -/
def lengthOf (ctx : Context) (v : Value) : Eval Value := do
  match v with
  | .binary bytes => return .long (Int64.ofNat bytes.length)
  | v => return .long (Int64.ofNat (← ctx.lexical v).length)

/-- Map the strings among values. -/
def mapStrings (f : String → String) (values : List Value) : List Value :=
  values.map fun v =>
    match v with
    | .string text => .string (f text)
    | v => v

/-- The score of one full-text search for a node; nothing if it has no expression. -/
def predicateScore (ctx : Context) (node : NodeId) (predicate : FullTextPredicate) :
    Eval (Option Double) := do
  match ← ctx.singleValue predicate.expression with
  | none => return none
  | some v => do
    let expression ← ctx.lexical v
    let score ← Eval.ofSearch
      (ctx.searcher.score ctx.tree ⟨predicate.selector, node, predicate.property, expression⟩)
    return some score

/-- The sum of the scores of a selector's full-text searches, added up in order. -/
def score (ctx : Context) (tuple : NodeTuple) (s : SelectorName) : Eval Double := do
  let node ← bound tuple s
  let scores ← (ctx.predicates.filter (·.selector = s)).mapM (ctx.predicateScore node)
  return (scores.filterMap id).foldl Double.add .zero

/-- The values of a dynamic operand. -/
def values (ctx : Context) (tuple : NodeTuple) : DynamicOperand → Eval (List Value)
  | .property operand => ctx.propertyValues tuple operand
  | .length operand => do (← ctx.propertyValues tuple operand).mapM ctx.lengthOf
  | .nodeName s => do
    let node ← bound tuple s
    return [.name (← Eval.ofNavigation (ctx.tree.nodeName node))]
  | .localName s => do
    let node ← bound tuple s
    return [.string (← Eval.ofNavigation (ctx.tree.nodeName node)).localPart]
  | .score s => do return [.double (← ctx.score tuple s)]
  | .upper operand => do return mapStrings toUpper (← ctx.values tuple operand)
  | .lower operand => do return mapStrings toLower (← ctx.values tuple operand)

end Context

end ContentQuery
