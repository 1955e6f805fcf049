import ContentQuery.Text.CharClass
import ContentQuery.Text.Split

/-!
# Names, paths and strings in statements

A string stands between single quotes, each quote inside it written twice. A name stands bare if it
reads as one word, or two with a colon between, and is not reserved; else in brackets. A path always
stands in brackets. What holds a closing bracket is written as a string instead.
-/

namespace ContentQuery.Statement

open Text

/-- The words that have a meaning of their own in a statement. -/
def reservedWords : List String := [
  "AND", "AS", "ASC", "BY", "CAST", "CONTAINS", "DESC", "FROM", "INNER", "IS",
  "ISCHILDNODE", "ISDESCENDANTNODE", "ISSAMENODE", "JOIN", "LEFT", "LENGTH", "LIKE",
  "LOCALNAME", "LOWER", "NAME", "NOT", "NULL", "ON", "OR", "ORDER", "OUTER", "RIGHT",
  "SCORE", "SELECT", "UPPER", "WHERE"]

/-- Whether a text is one word: ASCII letters, digits and underscores, no digit in front. -/
def isWord : List Char → Bool
  | [] => false
  | first :: rest =>
    (first.isAlpha || first == '_') && rest.all fun c => c.isAlphanum || c == '_'

/-- Whether a name can stand bare. -/
def isBareName (text : String) : Bool :=
  (match splitAtFirst? ':' text.toList with
    | some (label, localPart) => isWord label && isWord localPart
    | none => isWord text.toList) &&
  !reservedWords.any fun word => equalsIgnoringAsciiCase word text

/-- Write every single quote twice. -/
def doubleQuotes (cs : List Char) : List Char :=
  cs.flatMap fun c => if c = '\'' then ['\'', '\''] else [c]

/-- A string between single quotes. -/
def quote (text : String) : String := String.ofList (['\''] ++ doubleQuotes text.toList ++ ['\''])

/-- A text in brackets, or quoted if it holds the closing one. -/
def escapePath (text : String) : String :=
  if text.toList.contains ']' then quote text else "[" ++ text ++ "]"

/-- A name, bare where possible. -/
def escapeName (text : String) : String :=
  if text.toList.contains ']' then quote text
  else if isBareName text then text
  else "[" ++ text ++ "]"

end ContentQuery.Statement
