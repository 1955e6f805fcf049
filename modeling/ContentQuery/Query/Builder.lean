import ContentQuery.Query.Token

/-!
# Building queries from text

Selectors, names and paths come as text. Blanks around them are dropped, what is left must not be
empty, and names and paths are read by a registry; so a query that could be built holds qualified
names only. Of several faults the first one in the order of the reads is reported.
-/

namespace ContentQuery.Builder

open Naming Text

/-- What building can fail with. -/
abbrev Built := Except QueryError

/-- The text of a part without the blanks around it. -/
def required (part : QueryPart) (text : String) : Built String :=
  if trim text = "" then .error (.malformed (.missing part)) else .ok (trim text)

/-- A result whose error is a name or path that cannot be resolved. -/
def resolved {α : Type} (result : Except ResolveError α) : Built α :=
  result.mapError .unresolvableName

/-- Read the name of a selector. -/
def selectorName (text : String) : Built SelectorName := do
  return ⟨← required .selectorName text⟩

/-- Read a qualified name. -/
def name (names : Registry) (part : QueryPart) (text : String) : Built Name := do
  resolved (names.readName (← required part text))

/-- Read the name of a property. -/
def propertyName (names : Registry) (text : String) : Built Name := name names .propertyName text

/-- Read a path. -/
def path (names : Registry) (text : String) : Built Path := do
  resolved (names.readPath (← required .path text))

/-! ## Operands -/

/-- A name as a literal. -/
def nameLiteral (names : Registry) (text : String) : Built StaticOperand := do
  return .literal (.name (← name names .nameLiteral text))

/-- A path as a literal. -/
def pathLiteral (names : Registry) (text : String) : Built StaticOperand := do
  return .literal (.path (← path names text))

/-- Whether a text is an identifier: letters, numbers and underscores, no number in front. -/
def isIdentifier (text : String) : Bool :=
  match text.toList with
  | [] => false
  | first :: rest =>
    (isAlphabetic first || first == '_') && rest.all fun c => isAlphanumeric c || c == '_'

/-- A variable. -/
def boundVariable (text : String) : Built StaticOperand := do
  let name ← required .variableName text
  if isIdentifier name then return .variable ⟨name⟩
  else throw (.malformed (.notAnIdentifier name))

/-- A property of a selector's node. -/
def property (names : Registry) (selector property : String) : Built DynamicOperand := do
  let selector ← selectorName selector
  let property ← propertyName names property
  return .property ⟨selector, some property⟩

/-- All properties of a selector's node. -/
def anyProperty (selector : String) : Built DynamicOperand := do
  return .property ⟨← selectorName selector, none⟩

/-- The length of a property's values; nothing else has one. -/
def length : DynamicOperand → Built DynamicOperand
  | .property operand => .ok (.length operand)
  | operand => .error (.malformed (.lengthOf operand))

/-- The name of a selector's node. -/
def nodeName (selector : String) : Built DynamicOperand := do
  return .nodeName (← selectorName selector)

/-- The local name of a selector's node. -/
def localName (selector : String) : Built DynamicOperand := do
  return .localName (← selectorName selector)

/-- The full-text score of a selector's node. -/
def score (selector : String) : Built DynamicOperand := do
  return .score (← selectorName selector)

/-! ## Constraints -/

/-- A comparison. -/
def comparison (left : DynamicOperand) (operator : String) (right : StaticOperand) :
    Built Constraint := do
  return .comparison left (← Operator.read operator) right

/-- The existence of a property. -/
def propertyExists (names : Registry) (selector property : String) : Built Constraint := do
  let selector ← selectorName selector
  let property ← propertyName names property
  return .exists selector property

/-- A full-text search, in all properties if none is named. -/
def fullText (names : Registry) (selector : String) (property : Option String)
    (expression : StaticOperand) : Built Constraint := do
  let property ← property.mapM (propertyName names)
  let selector ← selectorName selector
  return .fullText ⟨selector, property, expression⟩

/-- A relation between a selector's node and the node at a path. -/
def structural (names : Registry) (relation : NodeRelation) (selector text : String) :
    Built Constraint := do
  let selector ← selectorName selector
  let path ← path names text
  return .structural relation selector path

/-! ## Joins -/

/-- A join on equal property values. -/
def equalJoin (names : Registry) (selector₁ property₁ selector₂ property₂ : String) :
    Built JoinCondition := do
  let selector₁ ← selectorName selector₁
  let property₁ ← propertyName names property₁
  let selector₂ ← selectorName selector₂
  let property₂ ← propertyName names property₂
  return .equal selector₁ property₁ selector₂ property₂

/-- A join on the same node, or on the node that a relative path leads to. -/
def sameNodeJoin (names : Registry) (selector₁ selector₂ : String) (text : Option String) :
    Built JoinCondition := do
  match ← text.mapM (path names) with
  | some ⟨true, steps⟩ => throw (.malformed (.absoluteJoinPath ⟨true, steps⟩))
  | path =>
    let selector₁ ← selectorName selector₁
    let selector₂ ← selectorName selector₂
    return .sameNode selector₁ selector₂ path

/-- A join on parent and child. -/
def childNodeJoin (child parent : String) : Built JoinCondition := do
  let child ← selectorName child
  let parent ← selectorName parent
  return .childNode child parent

/-- A join on ancestor and descendant. -/
def descendantNodeJoin (descendant ancestor : String) : Built JoinCondition := do
  let descendant ← selectorName descendant
  let ancestor ← selectorName ancestor
  return .descendantNode descendant ancestor

/-! ## Sources, orderings and columns -/

/-- All nodes of a type. -/
def selector (names : Registry) (nodeType selector : String) : Built Source := do
  let nodeType ← name names .nodeType nodeType
  let selector ← selectorName selector
  return .selector nodeType selector

/-- A join of two sources. -/
def join (left right : Source) (type : String) (condition : JoinCondition) : Built Source := do
  return .join left right (← JoinType.read type) condition

/-- A sort criterion. -/
def ordering (operand : DynamicOperand) (direction : String) : Built SortCriterion := do
  return ⟨operand, ← Direction.read direction⟩

/-- A column. -/
def column (names : Registry) (selector : String) (property label : Option String) :
    Built Column := do
  let property ← property.mapM (propertyName names)
  let label ← label.mapM (required .columnName)
  let selector ← selectorName selector
  return ⟨⟨selector, property⟩, label⟩

end ContentQuery.Builder
