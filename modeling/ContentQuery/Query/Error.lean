import ContentQuery.Query.Syntax

/-!
# Why a query cannot be built
-/

namespace ContentQuery

open Naming Text

/-- The parts of a query that need a text. -/
inductive QueryPart
  | selectorName | nameLiteral | path | variableName | propertyName | nodeType | columnName
  deriving DecidableEq

/-- The part in words. -/
def QueryPart.description : QueryPart → String
  | selectorName => "selector name"
  | nameLiteral => "name literal"
  | path => "path"
  | variableName => "bind variable name"
  | propertyName => "property name"
  | nodeType => "node type"
  | columnName => "column name"

/-- What is malformed in a query. -/
inductive Malformation
  | missing (part : QueryPart)
  | notAnIdentifier (name : String)
  | lengthOf (operand : DynamicOperand)
  | unknownOperator (token : String)
  | unknownJoinType (token : String)
  | unknownDirection (token : String)
  | absoluteJoinPath (path : Path)
  deriving DecidableEq

/-- Why a query cannot be built, checked or written. -/
inductive QueryError
  | malformed (fault : Malformation)
  | unresolvableName (cause : ResolveError)
  | unknownSelector (selector : SelectorName)
  | duplicateSelector (selector : SelectorName)
  deriving DecidableEq

/-! ## Operands in messages -/

/-- A record in a message. -/
def record (kind : String) (fields : List (String × String)) : String :=
  let inside := String.intercalate ", " (fields.map fun field => field.1 ++ ": " ++ field.2)
  kind ++ " " ++ braced (" " ++ inside ++ " ")

/-- A selector in a message. -/
def SelectorName.outline (s : SelectorName) : String := "SelectorName(" ++ quoted s.text ++ ")"

/-- A name in a message. -/
def nameOutline (n : Name) : String :=
  record "Name" [("namespace", quoted n.uri), ("local", quoted n.localPart)]

/-- A property operand in a message. -/
def PropertyOperand.outline (operand : PropertyOperand) : String :=
  record "PropertyValue" [
    ("selector", operand.selector.outline),
    ("property", match operand.property with
      | some n => "Some(" ++ nameOutline n ++ ")"
      | none => "None")]

/-- An operand in a message: the kind, and inside it the record of its parts. -/
def DynamicOperand.outline : DynamicOperand → String
  | property operand => "PropertyValue(" ++ operand.outline ++ ")"
  | length operand => "Length(" ++ record "Length" [("property_value", operand.outline)] ++ ")"
  | nodeName s => "NodeName(" ++ record "NodeName" [("selector", s.outline)] ++ ")"
  | localName s => "NodeLocalName(" ++ record "NodeLocalName" [("selector", s.outline)] ++ ")"
  | score s =>
    "FullTextSearchScore(" ++ record "FullTextSearchScore" [("selector", s.outline)] ++ ")"
  | upper operand => "UpperCase(" ++ record "UpperCase" [("operand", operand.outline)] ++ ")"
  | lower operand => "LowerCase(" ++ record "LowerCase" [("operand", operand.outline)] ++ ")"

/-! ## Messages -/

/-- The fault in words. -/
def Malformation.message : Malformation → String
  | missing part => part.description ++ " must not be empty"
  | notAnIdentifier name => "bind variable name '" ++ name ++ "' is not an identifier"
  | lengthOf operand => "LENGTH requires a property value operand, got " ++ operand.outline
  | unknownOperator token => "unknown operator '" ++ token ++ "'"
  | unknownJoinType token => "unknown join type '" ++ token ++ "'"
  | unknownDirection token => "unknown order '" ++ token ++ "'"
  | absoluteJoinPath path =>
    "same-node join path must be relative, got '" ++ path.expanded ++ "'"

/-- The error in words. -/
def QueryError.message : QueryError → String
  | malformed fault => "Malformed constraint: " ++ fault.message
  | unresolvableName cause => "Unresolvable name: " ++ cause.message
  | unknownSelector s => "Selector '" ++ s.text ++ "' is not declared in the query source"
  | duplicateSelector s => "Selector '" ++ s.text ++ "' is declared more than once"

end ContentQuery
