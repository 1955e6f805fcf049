import ContentQuery.Text.CharClass
import ContentQuery.Text.LetterCase

/-!
# The words of a text

A word is a longest run of letters and numbers, taken in lower case.
-/

namespace ContentQuery.FullText

open Text

/-- The run that the text begins with, maybe empty, and the later non-empty runs. -/
def runsFrom (p : Char → Bool) : List Char → List Char × List (List Char)
  | [] => ([], [])
  | c :: rest =>
    let (run, later) := runsFrom p rest
    if p c then (c :: run, later) else ([], if run = [] then later else run :: later)

/-- The longest runs of characters of a class. -/
def runs (p : Char → Bool) (cs : List Char) : List (List Char) :=
  let (run, later) := runsFrom p cs
  if run = [] then later else run :: later

/-- The words of a text, in order and in lower case. -/
def wordsOfChars (cs : List Char) : List String :=
  (runs isAlphanumeric cs).map fun run => toLower (String.ofList run)

/-- The words of a text, in order and in lower case. -/
def words (text : String) : List String := wordsOfChars text.toList

end ContentQuery.FullText
