/-!
# Sets of code points

Character classes are given as increasing lists of disjoint closed intervals. Membership is decided
by one walk that stops at the first interval beyond the character.
-/

namespace ContentQuery.Text

/-- A set of code points, as closed intervals in increasing order. -/
structure CodePoints where
  intervals : List (Nat × Nat)

namespace CodePoints

/-- Whether `n` lies in one of the intervals, none of which is looked at once they pass `n`. -/
def inIntervals (n : Nat) : List (Nat × Nat) → Bool
  | [] => false
  | (first, last) :: rest => first ≤ n && (n ≤ last || inIntervals n rest)

/-- Whether the set holds the character's code point. -/
def contains (s : CodePoints) (c : Char) : Bool :=
  inIntervals c.toNat s.intervals

end CodePoints

end ContentQuery.Text
