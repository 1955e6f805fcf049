import ContentQuery.Number.Decimal

/-!
# The shortest decimal of a double

A positive finite number has many decimals that read back as it. The shortest is found on grids of
falling step: on each, only the two grid points next to the number can read back as it if any can.
Of two points that both do, the nearer is taken, and how a tie goes is the caller's choice.
-/

namespace ContentQuery.Number

/-- A decimal `coefficient · 10 ^ exponent`. -/
structure Decimal where
  coefficient : Nat
  exponent : Int
  deriving DecidableEq

/-- How a number half way between two decimals is written. -/
inductive Tie
  /-- Away from zero. -/
  | up
  /-- To the even last digit. -/
  | even
  deriving DecidableEq

/-- The numerator and denominator of `n` units measured in steps of `10 ^ exponent`. -/
def gridQuotient (n : Nat) (exponent : Int) : Nat × Nat :=
  (n * Nat.pow 10 (-exponent).toNat, unitsInOne * Nat.pow 10 exponent.toNat)

/-- Whether the upper of two neighbouring grid points is the better one for `n / d` steps. -/
def prefersUpper (tie : Tie) (n d : Nat) : Bool :=
  d < 2 * (n % d) || (2 * (n % d) == d && (tie == .up || n / d % 2 == 1))

/-- The best point of the grid of step `10 ^ exponent` that reads back as the pattern. -/
def gridPoint? (tie : Tie) (p : Nat) (exponent : Int) : Option Decimal :=
  let (n, d) := gridQuotient (unitsOfPattern p) exponent
  let lower := n / d
  let lowerReads := patternOfDecimal lower exponent == p
  let upperReads := patternOfDecimal (lower + 1) exponent == p
  if upperReads && (!lowerReads || prefersUpper tie n d) then some ⟨lower + 1, exponent⟩
  else if lowerReads then some ⟨lower, exponent⟩
  else none

/-- The exponent of the first digit of a positive number of units. -/
def leadingExponent (n : Nat) : Int :=
  ((decimalDigits (n * Nat.pow 10 340 / unitsInOne)).length : Int) - 341

/-- All digits of a number of units. -/
def exactDecimal (n : Nat) : Decimal := ⟨n * Nat.pow 5 1074, -1074⟩

/-- The shortest decimal that reads back as a positive finite pattern. The first grid is coarser
than the number, so that a power of ten just above it is found with one digit. -/
def shortestDecimal (tie : Tie) (p : Nat) : Decimal :=
  let start := leadingExponent (unitsOfPattern p) + 1
  ((List.range 19).findSome? fun (i : Nat) => gridPoint? tie p (start - i)).getD
    (exactDecimal (unitsOfPattern p))

end ContentQuery.Number
