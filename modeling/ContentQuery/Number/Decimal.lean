import ContentQuery.Number.Double

/-!
# Decimal numerals

Digits are read and written in base ten. `patternOfDecimal` rounds `coefficient · 10 ^ exponent` to
the nearest double, and `readDouble` reads the numerals that stand for doubles: an optional sign,
then digits with at most one point and an optional exponent, or one of the words `inf`, `infinity`
and `nan` in any case.
-/

namespace ContentQuery.Number

/-- The decimal digits of a number. -/
def decimalDigits (n : Nat) : List Char := Nat.toDigits 10 n

/-- The decimal text of a number. -/
def decimalText (n : Nat) : String := String.ofList (decimalDigits n)

/-- The decimal text of an integer. -/
def integerText (n : Int) : String :=
  if n < 0 then "-" ++ decimalText n.natAbs else decimalText n.natAbs

/-- The decimal text of a number, with zeros in front up to a width. -/
def paddedText (width n : Nat) : String :=
  String.ofList (List.replicate (width - (decimalDigits n).length) '0' ++ decimalDigits n)

/-- Whether a character is one of the ten ASCII digits. -/
def isDigit (c : Char) : Bool := '0' ≤ c && c ≤ '9'

/-- The value of a digit. -/
def digitValue (c : Char) : Nat := c.toNat - '0'.toNat

/-- The number that a row of digits writes. -/
def ofDigits (ds : List Char) : Nat := ds.foldl (fun n c => 10 * n + digitValue c) 0

/-- The numerator and denominator of `coefficient · 10 ^ exponent`. -/
def decimalQuotient (coefficient : Nat) (exponent : Int) : Nat × Nat :=
  (coefficient * Nat.pow 10 exponent.toNat, Nat.pow 10 (-exponent).toNat)

/-- The place of the first digit's left neighbour: `coefficient · 10 ^ exponent` lies below
`10 ^ decimalTop`, and if it is not zero, from a tenth of that on. -/
def decimalTop (coefficient : Nat) (exponent : Int) : Int :=
  exponent + (decimalDigits coefficient).length

/-- The sign-free pattern nearest to `coefficient · 10 ^ exponent`. Numbers from `10 ^ 310` on are
infinite and numbers below `10 ^ -330` are zero, whatever their digits. -/
def patternOfDecimal (coefficient : Nat) (exponent : Int) : Nat :=
  if coefficient = 0 ∨ decimalTop coefficient exponent < -330 then 0
  else if 310 < decimalTop coefficient exponent then infinityPattern
  else
    patternOfQuotient ((decimalQuotient coefficient exponent).1 * unitsInOne)
      (decimalQuotient coefficient exponent).2

/-! ## Reading numerals -/

/-- Split off a leading sign: whether it is a minus, and the rest. -/
def splitSign : List Char → Bool × List Char
  | '-' :: rest => (true, rest)
  | '+' :: rest => (false, rest)
  | cs => (false, cs)

/-- The exponent part of a numeral: nothing, or `e` or `E`, an optional sign and digits
to the end. -/
def readExponent? : List Char → Option Int
  | [] => some 0
  | c :: rest =>
    let (negative, digits) := splitSign rest
    if (c = 'e' ∨ c = 'E') ∧ digits ≠ [] ∧ digits.all isDigit then
      some (if negative then -(ofDigits digits : Int) else ofDigits digits)
    else none

/-- A numeral without sign, as coefficient and exponent: digits, at most one point among or beside
them, and the exponent part. -/
def readDecimal? (cs : List Char) : Option (Nat × Int) :=
  let whole := cs.takeWhile isDigit
  let afterWhole := cs.dropWhile isDigit
  let fraction := match afterWhole with
    | '.' :: rest => rest.takeWhile isDigit
    | _ => []
  let afterFraction := match afterWhole with
    | '.' :: rest => rest.dropWhile isDigit
    | rest => rest
  if whole ++ fraction = [] then none
  else
    (readExponent? afterFraction).map fun e =>
      (ofDigits (whole ++ fraction), e - fraction.length)

/-- The words for numbers that have no digits. -/
def readWord? (cs : List Char) : Option Nat :=
  let word := String.ofList (cs.map Char.toLower)
  if word = "inf" ∨ word = "infinity" then some infinityPattern
  else if word = "nan" then some Double.nan.magnitude
  else none

/-- Read a numeral. -/
def readDouble? (cs : List Char) : Option Double :=
  let (negative, rest) := splitSign cs
  match readDecimal? rest with
  | some (coefficient, exponent) =>
    some (Double.ofPattern negative (patternOfDecimal coefficient exponent))
  | none => (readWord? rest).map (Double.ofPattern negative)

end ContentQuery.Number
