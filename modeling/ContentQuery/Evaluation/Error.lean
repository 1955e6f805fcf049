import ContentQuery.FullText.Searcher

/-!
# Why a constraint has no verdict
-/

namespace ContentQuery

open Naming Number

/-- Why a constraint has no verdict, or an operand no values. -/
inductive EvalError
  | selectorNotBound (selector : SelectorName)
  | unresolvableName (cause : ResolveError)
  | unknownVariable (name : VariableName)
  | multipleValues (count : Nat)
  | malformedPath (path : Path)
  | navigation (cause : NavigationError)
  | fullText (cause : FullText.SearchError)
  deriving DecidableEq

/-- The error in words. -/
def EvalError.message : EvalError → String
  | selectorNotBound s => "Selector '" ++ s.text ++ "' is not bound in the node-tuple"
  | unresolvableName cause => "Unresolvable name: " ++ cause.message
  | unknownVariable v => "Variable '$" ++ v.text ++ "' has no bound value"
  | multipleValues count =>
    "Static operand produced " ++ decimalText count ++ " values; at most one is allowed"
  | malformedPath path => "Malformed path '" ++ path.expanded ++ "'"
  | navigation cause => "Navigation failed: " ++ cause.message
  | fullText cause => "Full-text search failed: " ++ cause.message

end ContentQuery
