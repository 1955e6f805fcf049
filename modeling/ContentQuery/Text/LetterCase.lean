import ContentQuery.Text.Cased
import ContentQuery.Text.CaseRuns

/-!
# Upper and lower case

Every character is mapped by its full case mapping, which may be several characters long. One letter
depends on its neighbours: a capital sigma becomes `ς` at the end of a word and `σ` elsewhere.
-/

namespace ContentQuery.Text

/-- Where a run sends a code point, if the run holds it. -/
def CaseRun.image? (run : CaseRun) (n : Nat) : Option Nat :=
  if run.first ≤ n && n ≤ run.last && (n - run.first) % run.stride == 0 then
    some (run.image + (n - run.first))
  else none

/-- The image of one character under a table of runs and a table of longer images. -/
def mapCase (runs : List CaseRun) (expansions : List (Nat × List Nat)) (c : Char) : List Char :=
  match expansions.lookup c.toNat with
  | some image => image.map Char.ofNat
  | none =>
    match runs.findSome? (·.image? c.toNat) with
    | some n => [Char.ofNat n]
    | none => [c]

/-- The upper-case form of a character. -/
def upperChar (c : Char) : List Char := mapCase upperRuns upperExpansions c

/-- The lower-case form of a character standing alone. -/
def lowerChar (c : Char) : List Char := mapCase lowerRuns lowerExpansions c

/-- Whether the first character that is not passed over has a case. -/
def meetsCased (cs : List Char) : Bool :=
  match cs.dropWhile caseIgnorable.contains with
  | [] => false
  | c :: _ => cased.contains c

/-- The lower-case form of the second list, the first being the text before it, nearest first. -/
def lowerAfter : List Char → List Char → List Char
  | _, [] => []
  | before, c :: rest =>
    let image :=
      if c = 'Σ' then
        if meetsCased before && !meetsCased rest then ['ς'] else ['σ']
      else lowerChar c
    image ++ lowerAfter (c :: before) rest

/-- The text in upper case. -/
def toUpper (text : String) : String := String.ofList (text.toList.flatMap upperChar)

/-- The text in lower case. -/
def toLower (text : String) : String := String.ofList (lowerAfter [] text.toList)

end ContentQuery.Text
