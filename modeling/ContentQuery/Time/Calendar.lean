/-!
# The calendar

Days of the proleptic Gregorian calendar are numbered from 1970-01-01. Years run in eras of 400
years, each 146097 days long and beginning on the first of March of a year divisible by 400, so that
the leap day is the last day of its year.
-/

namespace ContentQuery.Time

/-- Whether a year has a leap day. -/
def isLeapYear (year : Int) : Bool :=
  year % 4 == 0 && (year % 100 != 0 || year % 400 == 0)

/-- The number of days of a month, counted from one. -/
def daysInMonth (year : Int) (month : Nat) : Nat :=
  match month with
  | 2 => if isLeapYear year then 29 else 28
  | 4 | 6 | 9 | 11 => 30
  | _ => 31

/-- The days of an era before its year `y`, counted from the first of March. -/
def daysBeforeYear (y : Int) : Int := 365 * y + y / 4 - y / 100

/-- The days of a year before its month `m`, March being month zero. -/
def daysBeforeMonth (m : Int) : Int := (153 * m + 2) / 5

/-- The number of a day. -/
def dayNumber (year : Int) (month day : Nat) : Int :=
  let y := if month ≤ 2 then year - 1 else year
  let m : Int := if month ≤ 2 then month + 9 else month - 3
  y / 400 * 146097 + daysBeforeYear (y % 400) + daysBeforeMonth m + (day - 1) - 719468

/-- The year, month and day of a numbered day. -/
def dateOfDay (n : Int) : Int × Nat × Nat :=
  let z := n + 719468
  let era := z / 146097
  let d := z % 146097
  let y := (d - d / 1460 + d / 36524 - d / 146096) / 365
  let dayOfYear := d - daysBeforeYear y
  let m := (5 * dayOfYear + 2) / 153
  let day := dayOfYear - daysBeforeMonth m + 1
  let month := if m < 10 then m + 3 else m - 9
  let year := y + era * 400
  (if month ≤ 2 then year + 1 else year, month.toNat, day.toNat)

end ContentQuery.Time
