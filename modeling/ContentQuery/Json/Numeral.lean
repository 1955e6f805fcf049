import ContentQuery.Number.Shortest

/-!
# Numbers in JSON

A `Numeral` is a number as it is written. It stands for an integer if it has neither point nor
exponent and fits 64 bits, and for a double in any case that is not too large. A double is read from
as many leading digits as fit 64 bits and scaled by a power of ten afterwards, so the result can
differ from the nearest double in the last place.

`doubleText` writes the fewest digits that read back, positionally between `10 ^ -5` and `10 ^ 16`
and with a signed exponent elsewhere.
-/

namespace ContentQuery.Json

open Number

/-- A number as it is written. -/
structure Numeral where
  negative : Bool
  /-- The digits in front of the point. -/
  whole : List Char
  /-- The digits behind the point. -/
  fraction : List Char
  exponent : Option Int
  deriving DecidableEq

namespace Numeral

/-- Split off the digits in front of the point: a single zero, or no zero in front. -/
def splitWhole? (cs : List Char) : Option (List Char × List Char) :=
  match cs.takeWhile isDigit with
  | [] => none
  | '0' :: _ :: _ => none
  | digits => some (digits, cs.dropWhile isDigit)

/-- Split off the point and the digits behind it, if there is a point. -/
def splitFraction? : List Char → Option (List Char × List Char)
  | '.' :: rest =>
    match rest.takeWhile isDigit with
    | [] => none
    | digits => some (digits, rest.dropWhile isDigit)
  | cs => some ([], cs)

/-- Read the exponent, if there is one, up to the end. -/
def readExponentPart? (cs : List Char) : Option (Option Int) :=
  if cs = [] then some none else (readExponent? cs).map some

/-- Read a word as a number. -/
def ofWord? (cs : List Char) : Option Numeral := do
  let (negative, cs) := match cs with
    | '-' :: rest => (true, rest)
    | cs => (false, cs)
  let (whole, cs) ← splitWhole? cs
  let (fraction, cs) ← splitFraction? cs
  let exponent ← readExponentPart? cs
  some { negative, whole, fraction, exponent }

/-! ## Integers -/

/-- The integer that a numeral stands for: one of 64 bits, signed if it is negative. The negative
zero is no integer. -/
def integer? (n : Numeral) : Option Int :=
  let magnitude := ofDigits n.whole
  if n.fraction ≠ [] ∨ n.exponent ≠ none then none
  else if n.negative then
    if magnitude ≠ 0 ∧ magnitude ≤ Nat.pow 2 63 then some (-(magnitude : Int)) else none
  else if magnitude < Nat.pow 2 64 then some magnitude
  else none

/-- The natural number below a bound that a numeral stands for. -/
def natural? (n : Numeral) (bound : Nat) : Option Nat :=
  match n.integer? with
  | some i => if 0 ≤ i ∧ i < bound then some i.toNat else none
  | none => none

/-! ## Doubles -/

/-- Append digits to a coefficient as long as it fits 64 bits: the coefficient, and the digits that
are left. -/
def appendDigits (coefficient : Nat) : List Char → Nat × List Char
  | [] => (coefficient, [])
  | c :: rest =>
    if 10 * coefficient + digitValue c < Nat.pow 2 64 then
      appendDigits (10 * coefficient + digitValue c) rest
    else (coefficient, c :: rest)

/-- The double nearest to a power of ten. -/
def powerOfTen (n : Nat) : Double := .ofQuotient false (Nat.pow 10 n) 1

/-- The greatest power of ten that is a double. -/
def greatestPower : Nat := 308

/-- Scale a number by a power of ten, rounding after each multiplication or division by a power that
is a double; none if it grows out of range. -/
def scaleByTen (x : Double) (exponent : Int) : Option Double :=
  if exponent.natAbs ≤ greatestPower then
    if 0 ≤ exponent then
      let y := x.mulFinite (powerOfTen exponent.natAbs)
      if y.isFinite then some y else none
    else some (x.divFinite (powerOfTen exponent.natAbs))
  else if x = .zero then some x
  else if 0 ≤ exponent then none
  else scaleByTen (x.divFinite (powerOfTen greatestPower)) (exponent + greatestPower)
termination_by exponent.natAbs
decreasing_by simp only [greatestPower] at *; omega

/-- The leading digits of a numeral as a coefficient, and the power of ten it is to be scaled by. -/
def leading (n : Numeral) : Nat × Int :=
  let (coefficient, wholeLeft) := appendDigits 0 n.whole
  let (coefficient, fractionLeft) := appendDigits coefficient n.fraction
  (coefficient, n.exponent.getD 0 + wholeLeft.length - (n.fraction.length - fractionLeft.length))

/-- The double that a numeral stands for; none if it is out of range. -/
def double? (n : Numeral) : Option Double :=
  let (coefficient, exponent) := n.leading
  (scaleByTen (.ofInt coefficient) exponent).map fun x => .ofPattern n.negative x.magnitude

end Numeral

/-! ## Writing -/

/-- A decimal exponent with its sign. -/
def exponentText (exponent : Int) : String :=
  (if exponent < 0 then "e-" else "e+") ++ decimalText exponent.natAbs

/-- The text of a positive decimal. `decimalTop` is the place of the point, counted from the first
digit. -/
def decimalNumber (x : Decimal) : String :=
  let digits := decimalDigits x.coefficient
  let top := decimalTop x.coefficient x.exponent
  let row := String.ofList
  let zeros (n : Int) := row (List.replicate n.toNat '0')
  if 0 ≤ x.exponent ∧ top ≤ 16 then row digits ++ zeros x.exponent ++ ".0"
  else if 0 < top ∧ top ≤ 16 then row (digits.take top.toNat) ++ "." ++ row (digits.drop top.toNat)
  else if -5 < top ∧ top ≤ 0 then "0." ++ zeros (-top) ++ row digits
  else
    row (digits.take 1) ++ (if digits.length = 1 then "" else "." ++ row (digits.drop 1)) ++
      exponentText (top - 1)

/-- The text of a double; infinities and NaN, which JSON lacks, become `null`. -/
def doubleText (x : Double) : String :=
  if x.isFinite then
    (if x.isNegative then "-" else "") ++
      (if x.magnitude = 0 then "0.0" else decimalNumber (shortestDecimal .even x.magnitude))
  else "null"

end ContentQuery.Json
