import ContentQuery.Query.Error

/-!
# Tokens for operators, join types and directions

Each is written by a keyword, in any case, or by the constant that programs use for it.
-/

namespace ContentQuery

open Text

/-- Read an operator. -/
def Operator.read (token : String) : Except QueryError Operator :=
  if trim token = "!=" then .ok .notEqualTo
  else
    match all.find? fun op =>
        equalsIgnoringAsciiCase op.symbol (trim token) || op.constant == trim token with
    | some op => .ok op
    | none => .error (.malformed (.unknownOperator (trim token)))

namespace JoinType

/-- All join types. -/
def all : List JoinType := [inner, leftOuter, rightOuter]

/-- The join type without the word `JOIN`. -/
def shortKeywords : JoinType → String
  | inner => "INNER"
  | leftOuter => "LEFT OUTER"
  | rightOuter => "RIGHT OUTER"

/-- The join type in a statement. -/
def keywords (type : JoinType) : String := type.shortKeywords ++ " JOIN"

/-- The constant that names the join type in programs. -/
def constant : JoinType → String
  | inner => "jcr.join.type.inner"
  | leftOuter => "jcr.join.type.left.outer"
  | rightOuter => "jcr.join.type.right.outer"

/-- Read a join type. -/
def read (token : String) : Except QueryError JoinType :=
  match all.find? fun type =>
      type.constant == trim token || type.keywords == asciiUpper (trim token) ||
        type.shortKeywords == asciiUpper (trim token) with
  | some type => .ok type
  | none => .error (.malformed (.unknownJoinType token))

end JoinType

namespace Direction

/-- The direction in a statement. -/
def keyword : Direction → String
  | ascending => "ASC"
  | descending => "DESC"

/-- The constant that names the direction in programs. -/
def constant : Direction → String
  | ascending => "jcr.order.ascending"
  | descending => "jcr.order.descending"

/-- Whether a token means the direction: its keyword, short or in full, or its constant. -/
def isMeantBy (direction : Direction) (token : String) : Bool :=
  equalsIgnoringAsciiCase token direction.keyword ||
    equalsIgnoringAsciiCase token (direction.keyword ++ "ENDING") || token == direction.constant

/-- Read a direction. -/
def read (token : String) : Except QueryError Direction :=
  match [ascending, descending].find? (·.isMeantBy (trim token)) with
  | some direction => .ok direction
  | none => .error (.malformed (.unknownDirection (trim token)))

end Direction

end ContentQuery
