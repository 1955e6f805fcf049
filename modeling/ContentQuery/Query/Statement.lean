import ContentQuery.Query.Escape
import ContentQuery.Query.Token

/-!
# Queries as statements

Every part of a query has a text, and a query is written as

`SELECT columns FROM source WHERE constraint ORDER BY orderings`

with the last two left out where there are none. Writing needs a registry, and fails where a
namespace has no prefix in it.
-/

namespace ContentQuery.Statement

open Naming Number

/-- A text, or the name or path that cannot be written. -/
abbrev Written := Except ResolveError String

/-- A qualified name. -/
def nameText (names : Registry) (n : Name) : Written := do return escapeName (← names.nameText n)

/-- A path. -/
def pathText (names : Registry) (p : Path) : Written := do return escapePath (← names.pathText p)

/-- A selector. -/
def selectorText (s : SelectorName) : String := escapeName s.text

/-- A property of a selector, or a star for all of them. -/
def propertyText (names : Registry) (operand : PropertyOperand) : Written := do
  match operand.property with
  | some n => return selectorText operand.selector ++ "." ++ (← nameText names n)
  | none => return selectorText operand.selector ++ ".*"

/-! ## Operands -/

/-- A value cast from its text to its type. -/
def castText (text : String) (type : PropertyType) : String :=
  "CAST(" ++ quote text ++ " AS " ++ type.keyword ++ ")"

/-- A literal: strings and numbers as they are, everything else as a cast. -/
def literalText (names : Registry) : Value → Written
  | .string text => .ok (quote text)
  | .long n => .ok (integerText n.toInt)
  | .double x => .ok x.text
  | v => do return castText (← v.lexical names) v.type

/-- A static operand. -/
def staticText (names : Registry) : StaticOperand → Written
  | .literal v => literalText names v
  | .variable v => .ok ("$" ++ v.text)

/-- A dynamic operand. -/
def dynamicText (names : Registry) : DynamicOperand → Written
  | .property operand => propertyText names operand
  | .length operand => do return "LENGTH(" ++ (← propertyText names operand) ++ ")"
  | .nodeName s => .ok ("NAME(" ++ selectorText s ++ ")")
  | .localName s => .ok ("LOCALNAME(" ++ selectorText s ++ ")")
  | .score s => .ok ("SCORE(" ++ selectorText s ++ ")")
  | .upper operand => do return "UPPER(" ++ (← dynamicText names operand) ++ ")"
  | .lower operand => do return "LOWER(" ++ (← dynamicText names operand) ++ ")"

/-! ## Constraints -/

/-- The function of a relation between nodes. -/
def relationFunction : NodeRelation → String
  | .same => "ISSAMENODE"
  | .child => "ISCHILDNODE"
  | .descendant => "ISDESCENDANTNODE"

/-- The text of a part, in parentheses if asked for. -/
def parenthesizedIf (condition : Bool) (text : String) : String :=
  if condition then "(" ++ text ++ ")" else text

/-- A constraint. -/
def constraintText (names : Registry) : Constraint → Written
  | .and left right => do
    let l ← constraintText names left
    let r ← constraintText names right
    return parenthesizedIf left.isCompound l ++ " AND " ++ parenthesizedIf right.isCompound r
  | .or left right => do
    let l ← constraintText names left
    let r ← constraintText names right
    return parenthesizedIf left.isCompound l ++ " OR " ++ parenthesizedIf right.isCompound r
  | .not constraint => do
    return "NOT " ++ parenthesizedIf constraint.isCompound (← constraintText names constraint)
  | .comparison left operator right => do
    let l ← dynamicText names left
    let r ← staticText names right
    return l ++ " " ++ operator.symbol ++ " " ++ r
  | .exists s p => do return (← propertyText names ⟨s, some p⟩) ++ " IS NOT NULL"
  | .fullText predicate => do
    let p ← propertyText names ⟨predicate.selector, predicate.property⟩
    let e ← staticText names predicate.expression
    return "CONTAINS(" ++ p ++ ", " ++ e ++ ")"
  | .structural relation s p => do
    return relationFunction relation ++ "(" ++ selectorText s ++ ", " ++ (← pathText names p) ++ ")"

/-! ## Sources -/

/-- A join condition. -/
def conditionText (names : Registry) : JoinCondition → Written
  | .equal s₁ p₁ s₂ p₂ => do
    let l ← propertyText names ⟨s₁, some p₁⟩
    let r ← propertyText names ⟨s₂, some p₂⟩
    return l ++ " = " ++ r
  | .sameNode s₁ s₂ none => .ok ("ISSAMENODE(" ++ selectorText s₁ ++ ", " ++ selectorText s₂ ++ ")")
  | .sameNode s₁ s₂ (some p) => do
    return "ISSAMENODE(" ++ selectorText s₁ ++ ", " ++ selectorText s₂ ++ ", " ++
      (← pathText names p) ++ ")"
  | .childNode c p => .ok ("ISCHILDNODE(" ++ selectorText c ++ ", " ++ selectorText p ++ ")")
  | .descendantNode d a =>
    .ok ("ISDESCENDANTNODE(" ++ selectorText d ++ ", " ++ selectorText a ++ ")")

/-- A source. Joins nest to the left, so that a join on the right stands in parentheses. -/
def sourceText (names : Registry) : Source → Written
  | .selector type s => do return (← nameText names type) ++ " AS " ++ selectorText s
  | .join left right type condition => do
    let l ← sourceText names left
    let r ← sourceText names right
    let c ← conditionText names condition
    return l ++ " " ++ type.keywords ++ " " ++ parenthesizedIf right.isJoin r ++ " ON " ++ c

/-! ## Queries -/

/-- A column. -/
def columnText (names : Registry) (column : Column) : Written := do
  let p ← propertyText names column.operand
  match column.label with
  | some label => return p ++ " AS " ++ escapeName label
  | none => return p

/-- A sort criterion. -/
def orderingText (names : Registry) (ordering : SortCriterion) : Written := do
  return (← dynamicText names ordering.operand) ++ " " ++ ordering.direction.keyword

/-- The columns, or a star if there are none. -/
def columnsText (names : Registry) (columns : List Column) : Written := do
  if columns = [] then return "*"
  else return String.intercalate ", " (← columns.mapM (columnText names))

/-- The constraint behind its keyword, if there is one. -/
def whereText (names : Registry) : Option Constraint → Written
  | none => .ok ""
  | some constraint => do return " WHERE " ++ (← constraintText names constraint)

/-- The orderings behind their keyword, if there are any. -/
def orderByText (names : Registry) (orderings : List SortCriterion) : Written := do
  if orderings = [] then return ""
  else return " ORDER BY " ++ String.intercalate ", " (← orderings.mapM (orderingText names))

/-- A query. -/
def queryText (names : Registry) (query : Query) : Written := do
  let columns ← columnsText names query.columns
  let source ← sourceText names query.source
  let constraint ← whereText names query.constraint
  let orderings ← orderByText names query.orderings
  return "SELECT " ++ columns ++ " FROM " ++ source ++ constraint ++ orderings

end ContentQuery.Statement
