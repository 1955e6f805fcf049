import ContentQuery.Number.Decimal
import ContentQuery.Time.Calendar

/-!
# Dates with a time and an offset

A `DateTime` is the calendar date and the clock time that a place at a fixed offset from UTC shows.
Two of them are compared by the instants they mean. A leap second is the second before it that goes
on, with `10 ^ 9` nanoseconds and more; offsets being counted in seconds, it may come anywhere in the
minute of a place.

A text writes the offset in minutes, to the nearest one, and a leap second as one second more.
-/

namespace ContentQuery.Time

open Number

/-- The clock reading of a place: a civil date, a time of day and the offset from UTC in seconds. -/
structure Reading where
  year : Int
  month : Nat
  day : Nat
  hour : Nat
  minute : Nat
  second : Nat
  nanosecond : Nat
  offset : Int
  deriving DecidableEq

/-- The first and the last year of the calendar. -/
def years : Int × Int := (-262143, 262142)

/-- The numbers of the first and the last second of the calendar in UTC. -/
def secondRange : Int × Int :=
  (dayNumber years.1 1 1 * 86400, dayNumber years.2 12 31 * 86400 + 86399)

namespace Reading

/-- Whole seconds of the instant since 1970-01-01T00:00:00Z. -/
def seconds (r : Reading) : Int :=
  dayNumber r.year r.month r.day * 86400 + r.hour * 3600 + r.minute * 60 + r.second - r.offset

/-- Whether the second is one that goes on as a leap second. -/
def isLeap (r : Reading) : Bool := 1000000000 ≤ r.nanosecond

/-- Whether there is such a date and time, its offset lying within a day and its instant in the
calendar. The place itself may be a day ahead of the calendar or behind it. -/
def Valid (r : Reading) : Prop :=
  (1 ≤ r.month ∧ r.month ≤ 12) ∧
  (1 ≤ r.day ∧ r.day ≤ daysInMonth r.year r.month) ∧
  (r.hour < 24 ∧ r.minute < 60 ∧ r.second < 60 ∧ r.nanosecond < 2000000000) ∧
  (-86400 < r.offset ∧ r.offset < 86400) ∧
  (secondRange.1 ≤ r.seconds ∧ r.seconds ≤ secondRange.2)

instance (r : Reading) : Decidable r.Valid := by unfold Valid; infer_instance

end Reading

/-- A date with a time of day at a fixed offset from UTC. -/
structure DateTime where
  reading : Reading
  valid : reading.Valid

instance : DecidableEq DateTime := fun a b =>
  if h : a.reading = b.reading then
    .isTrue (by cases a; cases b; cases h; rfl)
  else .isFalse (fun e => h (congrArg DateTime.reading e))

namespace DateTime

/-- The date of a clock reading, if there is one and its year is in the calendar. -/
def ofReading? (r : Reading) : Option DateTime :=
  if h : r.Valid then
    if years.1 ≤ r.year ∧ r.year ≤ years.2 then some ⟨r, h⟩ else none
  else none

/-- The whole seconds of the instant. -/
def seconds (t : DateTime) : Int := t.reading.seconds

/-- The nanoseconds of the instant since its whole second. -/
def subsecond (t : DateTime) : Nat := t.reading.nanosecond

/-- Milliseconds since 1970-01-01T00:00:00Z, rounded down. -/
def millis (t : DateTime) : Int := t.seconds * 1000 + (t.subsecond / 1000000 : Nat)

/-- The date in UTC of a number of milliseconds. -/
def ofMillis? (ms : Int) : Option DateTime :=
  let secondOfDay := ms / 1000 % 86400
  let (year, month, day) := dateOfDay (ms / 1000 / 86400)
  ofReading? {
    year, month, day
    hour := (secondOfDay / 3600).toNat
    minute := (secondOfDay / 60 % 60).toNat
    second := (secondOfDay % 60).toNat
    nanosecond := (ms % 1000).toNat * 1000000
    offset := 0 }

/-- Compare two dates by their instants. -/
def compareInstant (a b : DateTime) : Ordering :=
  (compare a.seconds b.seconds).then (compare a.subsecond b.subsecond)

/-! ## Text -/

/-- The year: four digits in the first ten millennia, else a sign and at least four digits. -/
def yearText (year : Int) : String :=
  if 0 ≤ year ∧ year ≤ 9999 then paddedText 4 year.natAbs
  else (if year < 0 then "-" else "+") ++ paddedText 4 year.natAbs

/-- The fraction of a second, in as few of 0, 3, 6 or 9 digits as hold it. -/
def fractionText (nanosecond : Nat) : String :=
  if nanosecond = 0 then ""
  else if nanosecond % 1000000 = 0 then "." ++ paddedText 3 (nanosecond / 1000000)
  else if nanosecond % 1000 = 0 then "." ++ paddedText 6 (nanosecond / 1000)
  else "." ++ paddedText 9 nanosecond

/-- The minutes nearest to an offset, a half being rounded up, without the sign. -/
def roundedMinutes (offset : Int) : Nat := (offset.natAbs + 30) / 60

/-- The offset as signed hours and minutes. -/
def offsetText (offset : Int) : String :=
  (if offset < 0 then "-" else "+") ++ paddedText 2 (roundedMinutes offset / 60) ++ ":" ++
    paddedText 2 (roundedMinutes offset % 60)

/-- The second and the nanoseconds of it as they are written: a leap second is one second more. -/
def writtenSecond (r : Reading) : Nat × Nat :=
  if r.isLeap then (r.second + 1, r.nanosecond - 1000000000) else (r.second, r.nanosecond)

/-- The date and time of day without the offset. -/
def localText (r : Reading) : String :=
  yearText r.year ++ "-" ++ paddedText 2 r.month ++ "-" ++ paddedText 2 r.day ++ "T" ++
    paddedText 2 r.hour ++ ":" ++ paddedText 2 r.minute ++ ":" ++
    paddedText 2 (writtenSecond r).1 ++ fractionText (writtenSecond r).2

/-- The date in the notation of RFC 3339, the offset in digits also where it is zero. -/
def text (t : DateTime) : String := localText t.reading ++ offsetText t.reading.offset

/-- The date in the notation of RFC 3339 with `Z` for the offset zero. -/
def zuluText (t : DateTime) : String :=
  localText t.reading ++ (if t.reading.offset = 0 then "Z" else offsetText t.reading.offset)

end DateTime

end ContentQuery.Time
