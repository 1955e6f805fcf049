import ContentQuery.Number.Shortest

/-!
# The text of a double

A whole number below `10 ^ 16` is written exactly and with one zero behind the point. Every other
finite number is written positionally, never with an exponent, in the fewest digits that read back
as it; of two equally short and equally near decimals the one away from zero is taken.
-/

namespace ContentQuery.Number

/-- The text of a decimal without an exponent: zeros fill the places between digits and point, and a
decimal without places behind the point has no point. -/
def Decimal.positional (x : Decimal) : String :=
  let digits := decimalDigits x.coefficient
  if 0 ≤ x.exponent then
    String.ofList (digits ++ List.replicate x.exponent.toNat '0')
  else
    let places := (-x.exponent).toNat
    let padded := List.replicate (places + 1 - digits.length) '0' ++ digits
    String.ofList
      (padded.take (padded.length - places) ++ ['.'] ++ padded.drop (padded.length - places))

/-- Whether a finite number is whole and below `10 ^ 16`. -/
def Double.isShortWhole (x : Double) : Bool :=
  x.isFinite && unitsOfPattern x.magnitude % unitsInOne == 0 &&
    decide (unitsOfPattern x.magnitude < Nat.pow 10 16 * unitsInOne)

/-- The text of the number without its sign. -/
def Double.magnitudeText (x : Double) : String :=
  if x.isShortWhole then decimalText (unitsOfPattern x.magnitude / unitsInOne) ++ ".0"
  else if x.isFinite then (shortestDecimal .up x.magnitude).positional
  else "inf"

/-- The text of a double. -/
def Double.text (x : Double) : String :=
  if x.isNaN then "NaN"
  else if x.isNegative then "-" ++ x.magnitudeText
  else x.magnitudeText

end ContentQuery.Number
