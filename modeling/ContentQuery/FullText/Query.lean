import ContentQuery.FullText.Words
import ContentQuery.Number.Double

/-!
# Full-text queries

A query is a list of alternatives, each a list of terms. A term is a row of words that occurs
wherever they follow each other in a text, and an excluded term must not occur at all. The first
alternative that a text satisfies decides its score: the occurrences of its terms, divided by the
number of words.
-/

namespace ContentQuery.FullText

open Number

/-- Words that must, or if excluded must not, follow each other in a text. -/
structure Term where
  words : List String
  excluded : Bool
  deriving DecidableEq

/-- Alternatives, each a list of terms that hold together. -/
structure Query where
  alternatives : List (List Term)
  deriving DecidableEq

/-- The number of places where a row of words begins. -/
def occurrencesOf (row : List String) : List String → Nat
  | [] => 0
  | w :: rest => (if row.isPrefixOf (w :: rest) then 1 else 0) + occurrencesOf row rest

/-- The number of places where a term occurs; a term without words occurs nowhere. -/
def Term.occurrences (term : Term) (text : List String) : Nat :=
  if term.words = [] then 0 else occurrencesOf term.words text

/-- The occurrences of the terms that are not excluded, or none if one of them is missing or an
excluded one is found. -/
def hitsOfTerms (text : List String) : List Term → Option Nat
  | [] => some 0
  | term :: rest =>
    let found := term.occurrences text
    if term.excluded then (if found = 0 then hitsOfTerms text rest else none)
    else if found = 0 then none
    else (hitsOfTerms text rest).map (found + ·)

namespace Query

/-- The occurrences counted by the first alternative that the text satisfies. -/
def hits (query : Query) (text : List String) : Option Nat :=
  query.alternatives.findSome? (hitsOfTerms text)

/-- Whether a text satisfies one of the alternatives. -/
def isMatch (query : Query) (text : String) : Bool := (query.hits (words text)).isSome

/-- The score of a text: zero if it does not match or has no words. -/
def score (query : Query) (text : String) : Double :=
  match query.hits (words text) with
  | some n => if words text = [] then .zero else .ofQuotient false n (words text).length
  | none => .zero

end Query

end ContentQuery.FullText
