import ContentQuery.Naming.Path
import ContentQuery.Number.DoubleText
import ContentQuery.Text.Utf8
import ContentQuery.Time.Rfc3339

/-!
# Property values

A property holds values of nine types. A value can be viewed as a number, a truth value or a date
where that makes sense, and all but names and paths have a text that needs no namespace registry.
-/

namespace ContentQuery

open Naming Number Text Time

/-- The types of property values. -/
inductive PropertyType
  | string | long | double | boolean | date | binary | name | path | reference
  deriving DecidableEq

/-- The name of a type in a statement. -/
def PropertyType.keyword : PropertyType → String
  | string => "STRING"
  | long => "LONG"
  | double => "DOUBLE"
  | boolean => "BOOLEAN"
  | date => "DATE"
  | binary => "BINARY"
  | name => "NAME"
  | path => "PATH"
  | reference => "REFERENCE"

/-- All types. -/
def PropertyType.all : List PropertyType :=
  [string, long, double, boolean, date, binary, name, path, reference]

/-- The type with a name. -/
def PropertyType.ofKeyword? (keyword : String) : Option PropertyType :=
  all.find? fun type => type.keyword == keyword

/-- One value of a property. -/
inductive Value
  | string (text : String)
  | long (n : Int64)
  | double (x : Double)
  | boolean (b : Bool)
  | date (t : DateTime)
  | binary (bytes : List UInt8)
  | name (n : Name)
  | path (p : Path)
  /-- The identifier of another node. -/
  | reference (identifier : String)
  deriving DecidableEq

namespace Value

/-- The type of a value. -/
def type : Value → PropertyType
  | string _ => .string
  | long _ => .long
  | double _ => .double
  | boolean _ => .boolean
  | date _ => .date
  | binary _ => .binary
  | name _ => .name
  | path _ => .path
  | reference _ => .reference

/-- The text of a string or a reference. -/
def text? : Value → Option String
  | string text => some text
  | reference identifier => some identifier
  | _ => none

/-- The value as a number: strings are read, dates count milliseconds. -/
def toDouble? : Value → Option Double
  | long n => some (.ofInt n.toInt)
  | double x => some x
  | string text => readDouble? (trimChars text.toList)
  | date t => some (.ofInt t.millis)
  | _ => none

/-- The value as a truth value: strings are read, in any case. -/
def toBoolean? : Value → Option Bool
  | boolean b => some b
  | string text =>
    if equalsIgnoringAsciiCase text "true" then some true
    else if equalsIgnoringAsciiCase text "false" then some false
    else none
  | _ => none

/-- The value as a date: strings are read, numbers count milliseconds in UTC. -/
def toDate? : Value → Option DateTime
  | date t => some t
  | string text => readDateTime? (trim text)
  | long n => DateTime.ofMillis? n.toInt
  | double x => if x.isFinite then DateTime.ofMillis? x.truncate else none
  | _ => none

/-- The text of a value that needs no registry; names and paths have none. -/
def lexicalForm? : Value → Option String
  | string text => some text
  | reference identifier => some identifier
  | long n => some (integerText n.toInt)
  | double x => some x.text
  | boolean b => some (if b then "true" else "false")
  | date t => some t.text
  | binary bytes => some (readUtf8 bytes)
  | name _ | path _ => none

end Value

end ContentQuery
