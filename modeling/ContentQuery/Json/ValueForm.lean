import ContentQuery.Evaluation.Verdict
import ContentQuery.Json.Text

/-!
# Values in JSON

A value is a record of its type and its contents, as in `{"type":"LONG","value":5}`; names, paths
and the steps of paths are records of their own. The contents can be read only when the type is
known, so contents in front of their type are read late: everything in them must be readable first.
-/

namespace ContentQuery.Json

open Naming Number Time

namespace Document

/-! ## Reading -/

/-- The type of a value. -/
def propertyType? (d : Document) : Option PropertyType :=
  (d.tag? false).bind PropertyType.ofKeyword?

/-- A name. -/
def name? (d : Document) : Option Name := do
  match ← d.fields? ["namespace", "local"] with
  | [some uri, some localPart] => some ⟨← uri.text?, ← localPart.text?⟩
  | _ => none

/-- The step to a child; an index of zero is kept. -/
def namedStep? (d : Document) : Option Step := do
  match ← d.fields? ["name", "index"] with
  | [some name, some index] => do
    let index ← index.natural? (Nat.pow 2 32)
    some (.named (← name.name?) (.ofNat index))
  | _ => none

/-- A step of a path. -/
def step? (late : Bool) : Document → Option Step
  | object [(some "Named", contents)] => contents.namedStep?
  | d =>
    match d.tag? late with
    | some "Current" => some .current
    | some "Parent" => some .parent
    | _ => none

/-- A path. -/
def path? (late : Bool) (d : Document) : Option Path := do
  match ← d.fields? ["absolute", "elements"] with
  | [some absolute, some steps] => some ⟨← absolute.boolean?, ← steps.items? (step? late)⟩
  | _ => none

/-- A byte. -/
def byte? (d : Document) : Option UInt8 := (d.natural? 256).map .ofNat

/-- The contents of a value. -/
def contents? (late : Bool) (type : PropertyType) (d : Document) : Option Value :=
  match type with
  | .string => d.text?.map .string
  | .long => d.int64?.map .long
  | .double => d.double?.map .double
  | .boolean => d.boolean?.map .boolean
  | .date => (d.text?.bind readLenientDateTime?).map .date
  | .binary => (d.items? byte?).map .binary
  | .name => d.name?.map .name
  | .path => (d.path? late).map .path
  | .reference => d.text?.map .reference

/-- Whether the first field of a value is its contents. -/
def hasLateType : Document → Bool
  | object members =>
    match members.find? fun member => member.1 == some "type" || member.1 == some "value" with
    | some (name, _) => name == some "value"
    | none => false
  | _ => false

/-- The type in a value: any tag in an object, but only a string in an array. -/
def typeField? (value type : Document) : Option PropertyType :=
  match value with
  | array _ => type.text?.bind PropertyType.ofKeyword?
  | _ => type.propertyType?

/-- How deep arrays and objects can nest in contents that are read late. -/
def lateLimit : Nat := 126

/-- A value. -/
def value? (d : Document) : Option Value := do
  match ← d.fields? ["type", "value"] with
  | [some type, some contents] =>
    if d.hasLateType && !contents.isReadable lateLimit then none
    else contents.contents? d.hasLateType (← d.typeField? type)
  | _ => none

/-- A verdict. -/
def verdict? (d : Document) : Option Verdict :=
  match d.tag? false with
  | some "Satisfied" => some .satisfied
  | some "Unsatisfied" => some .unsatisfied
  | _ => none

end Document

/-! ## Writing -/

/-- A name as a record. -/
def nameForm (n : Name) : String :=
  objectText [("namespace", stringText n.uri), ("local", stringText n.localPart)]

/-- A step as a tag, or as a record behind its tag. -/
def stepForm : Step → String
  | .current => stringText "Current"
  | .parent => stringText "Parent"
  | .named name index =>
    objectText [("Named",
      objectText [("name", nameForm name), ("index", decimalText index.toNat)])]

/-- A path as a record. -/
def pathForm (p : Path) : String :=
  objectText [
    ("absolute", if p.absolute then "true" else "false"),
    ("elements", arrayText (p.steps.map stepForm))]

/-- A type as a tag. -/
def propertyTypeForm (type : PropertyType) : String := stringText type.keyword

/-- The contents of a value. -/
def contentsForm : Value → String
  | .string text => stringText text
  | .long n => integerText n.toInt
  | .double x => doubleText x
  | .boolean b => if b then "true" else "false"
  | .date t => stringText t.zuluText
  | .binary bytes => arrayText (bytes.map fun byte => decimalText byte.toNat)
  | .name n => nameForm n
  | .path p => pathForm p
  | .reference identifier => stringText identifier

/-- A value as a record. -/
def valueForm (v : Value) : String :=
  objectText [("type", propertyTypeForm v.type), ("value", contentsForm v)]

/-- A verdict as a tag. -/
def verdictForm : Verdict → String
  | .satisfied => stringText "Satisfied"
  | .unsatisfied => stringText "Unsatisfied"

end ContentQuery.Json
