import ContentQuery.Json.Numeral

/-!
# JSON documents

A `Document` keeps what a text says: numbers as they are written, and the members of objects in
order and with repetitions. A string whose surrogate escapes do not pair up has no text.

What nobody asks for is not looked at, so a document may hold such strings, and numbers out of
range, where they do no harm. `Document.isReadable` tells whether it holds none.
-/

namespace ContentQuery.Json

/-- A JSON document. -/
inductive Document
  | null
  | boolean (b : Bool)
  | number (n : Numeral)
  | string (text : Option String)
  | array (items : List Document)
  | object (members : List (Option String × Document))

namespace Document

/-- Whether all numbers are in range, all strings have a text, and arrays and objects nest no deeper
than a limit. -/
def isReadable : Nat → Document → Bool
  | _, null => true
  | _, boolean _ => true
  | _, number n => n.double?.isSome
  | _, string text => text.isSome
  | 0, array _ => false
  | 0, object _ => false
  | limit + 1, array items => items.all (isReadable limit)
  | limit + 1, object members =>
    members.all fun member => member.1.isSome && isReadable limit member.2

/-- The text of a string. -/
def text? : Document → Option String
  | string text => text
  | _ => none

/-- A truth value. -/
def boolean? : Document → Option Bool
  | boolean b => some b
  | _ => none

/-- A natural number below a bound. -/
def natural? (bound : Nat) : Document → Option Nat
  | number n => n.natural? bound
  | _ => none

/-- A signed integer of 64 bits. -/
def int64? : Document → Option Int64
  | number n =>
    match n.integer? with
    | some i => if i < Nat.pow 2 63 then some (Int64.ofInt i) else none
    | none => none
  | _ => none

/-- A double; integers stand for doubles as well. -/
def double? : Document → Option Number.Double
  | number n => n.double?
  | _ => none

/-- The items of an array, each read. -/
def items? {α : Type} (read : Document → Option α) : Document → Option (List α)
  | array items => items.mapM read
  | _ => none

/-! ## Records and tags -/

/-- The members of an object with a name. -/
def membersNamed (name : String) (members : List (Option String × Document)) : List Document :=
  (members.filter (·.1 == some name)).map Prod.snd

/-- The fields of a record: the members of an object by their names, each at most once and any
others passed over, or the items of an array by their places, with none left over. -/
def fields? (names : List String) : Document → Option (List (Option Document))
  | object members =>
    if members.all (·.1.isSome) then
      names.mapM fun name =>
        match membersNamed name members with
        | [] => some none
        | [field] => some (some field)
        | _ => none
    else none
  | array items =>
    if items.length ≤ names.length then
      some ((List.range names.length).map fun i => items[i]?)
    else none
  | _ => none

/-- A tag without contents: a string, or an object with the tag as its only name and nothing in it.
In contents that are read late, `{}` counts as nothing too. -/
def tag? (late : Bool) : Document → Option String
  | string text => text
  | object [(tag, null)] => tag
  | object [(tag, object [])] => if late then tag else none
  | _ => none

end Document

end ContentQuery.Json
