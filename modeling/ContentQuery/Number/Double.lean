/-!
# Double-precision numbers

A `Double` is the bit pattern of an IEEE 754 binary64 number, so every pattern has its own value,
signed zeros and all NaNs included. The finite numbers are whole multiples of `2 ^ -1074`; that
multiple, the number of *units*, is exact, and rounding a quotient of natural numbers to the nearest
pattern is done on units alone.

Both orders are orders of integers: `compareTotal` orders all patterns, `compare?` orders numbers
and leaves NaN out.
-/

namespace ContentQuery.Number

/-- The size of the fraction field: patterns that share one exponent. -/
def fractionCount : Nat := Nat.pow 2 52

/-- The pattern of infinity without its sign; the finite patterns are below it. -/
def infinityPattern : Nat := 0x7FF0000000000000

/-- Units in one: the exact denominator of every finite number. -/
def unitsInOne : Nat := Nat.pow 2 1074

/-- The units of a sign-free finite pattern. Below `2 * fractionCount` the pattern counts units
itself; every further exponent doubles the step. -/
def unitsOfPattern (p : Nat) : Nat :=
  (p - (p / fractionCount - 1) * fractionCount) * Nat.pow 2 (p / fractionCount - 1)

/-- Divide and round to the nearest whole number, halves to the even neighbour. -/
def divNearestEven (n d : Nat) : Nat :=
  if 2 * (n % d) < d ∨ (2 * (n % d) = d ∧ n / d % 2 = 0) then n / d else n / d + 1

/-- The doublings by which the step at `n / d` units exceeds one unit. -/
def stepExponent (n d : Nat) : Nat := (n / d).log2 - 52

/-- The sign-free pattern nearest to `n / d` units, halves to the even pattern and numbers beyond
the greatest finite one to infinity. -/
def patternOfQuotient (n d : Nat) : Nat :=
  min infinityPattern
    (stepExponent n d * fractionCount + divNearestEven n (d * Nat.pow 2 (stepExponent n d)))

/-- A double-precision number, given by its bit pattern. -/
structure Double where
  bits : UInt64
  deriving DecidableEq

namespace Double

/-- Whether the sign bit is set. -/
def isNegative (x : Double) : Bool := decide (Nat.pow 2 63 ≤ x.bits.toNat)

/-- The pattern without its sign. -/
def magnitude (x : Double) : Nat := x.bits.toNat % Nat.pow 2 63

/-- Whether the pattern stands for no number. -/
def isNaN (x : Double) : Bool := decide (infinityPattern < x.magnitude)

/-- Whether the pattern stands for a finite number. -/
def isFinite (x : Double) : Bool := decide (x.magnitude < infinityPattern)

/-- The number with a sign and a sign-free pattern. -/
def ofPattern (negative : Bool) (p : Nat) : Double :=
  ⟨UInt64.ofNat (if negative then Nat.pow 2 63 + p else p)⟩

/-- Positive zero. -/
def zero : Double := ofPattern false 0

/-- The NaN that arithmetic gives. -/
def nan : Double := ofPattern false 0x7FF8000000000000

/-- The number nearest to `n / d`, with a sign. -/
def ofQuotient (negative : Bool) (n d : Nat) : Double :=
  ofPattern negative (patternOfQuotient (n * unitsInOne) d)

/-- The number nearest to an integer. -/
def ofInt (n : Int) : Double := ofQuotient (decide (n < 0)) n.natAbs 1

/-- The units of a finite number, with its sign. -/
def units (x : Double) : Int :=
  if x.isNegative then -(unitsOfPattern x.magnitude : Int) else unitsOfPattern x.magnitude

/-- The number nearest to a signed count of units; an empty count is positive zero. -/
def ofUnits (n : Int) : Double := ofPattern (decide (n < 0)) (patternOfQuotient n.natAbs 1)

/-- The whole part of a finite number. -/
def truncate (x : Double) : Int := x.units.tdiv unitsInOne

/-! ## Order -/

/-- The place of a number among the numbers; both zeros share one. -/
def orderKey (x : Double) : Int := if x.isNegative then -(x.magnitude : Int) else x.magnitude

/-- Compare two numbers; NaN compares with nothing. -/
def compare? (a b : Double) : Option Ordering :=
  if a.isNaN || b.isNaN then none else some (compare a.orderKey b.orderKey)

/-- The place of a pattern among all patterns: negative NaNs first, then the numbers with the
negative zero before the positive one, then the other NaNs. -/
def totalKey (x : Double) : Int := if x.isNegative then -(x.magnitude : Int) - 1 else x.magnitude

/-- Compare two patterns in the total order. -/
def compareTotal (a b : Double) : Ordering := compare a.totalKey b.totalKey

/-! ## Arithmetic -/

/-- The sum, rounded once. Infinities of opposite signs have none, and a sum of zeros is negative
only if both are. -/
def add (a b : Double) : Double :=
  if a.isNaN || b.isNaN then nan
  else if !a.isFinite then (if b.isFinite || a.isNegative == b.isNegative then a else nan)
  else if !b.isFinite then b
  else if a.units + b.units = 0 then ofPattern (a.isNegative && b.isNegative) 0
  else ofUnits (a.units + b.units)

/-- The product of two finite numbers, rounded once. -/
def mulFinite (a b : Double) : Double :=
  ofPattern (a.isNegative != b.isNegative)
    (patternOfQuotient (unitsOfPattern a.magnitude * unitsOfPattern b.magnitude) unitsInOne)

/-- The quotient of two finite numbers, rounded once. -/
def divFinite (a b : Double) : Double :=
  ofPattern (a.isNegative != b.isNegative)
    (patternOfQuotient (unitsOfPattern a.magnitude * unitsInOne) (unitsOfPattern b.magnitude))

end Double

end ContentQuery.Number
