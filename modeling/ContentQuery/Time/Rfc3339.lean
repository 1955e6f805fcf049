import ContentQuery.Text.CharClass
import ContentQuery.Time.DateTime

/-!
# Reading dates

`readDateTime?` reads the notation of RFC 3339: fields of fixed width, `T`, `t` or a space between
date and time, any number of digits of a second, and `Z`, `z` or signed hours and minutes as the
offset. `readLenientDateTime?` also takes shorter fields, a signed year of any length, blanks around
fields and separators, `UTC` as the offset, and any colons and blanks between the offset's hours and
minutes. Both refuse what is not a date of the calendar.
-/

namespace ContentQuery.Time

open Number Text

/-- A reader takes what it reads off the front of a text, or refuses. -/
abbrev Reader (α : Type) := List Char → Option (α × List Char)

/-- Read a number of at least `least` and at most `most` digits, as many as there are. -/
def readNumber? (least most : Nat) : Reader Nat := fun cs =>
  let digits := (cs.take most).takeWhile isDigit
  if least ≤ digits.length then some (ofDigits digits, cs.drop digits.length) else none

/-- Read one given character. -/
def readChar? (expected : Char) : Reader Unit
  | c :: rest => if c = expected then some ((), rest) else none
  | [] => none

/-- Read what stands between date and time. -/
def readDateEnd? : Reader Unit
  | c :: rest => if c = 'T' ∨ c = 't' ∨ c = ' ' then some ((), rest) else none
  | [] => none

/-- The nanoseconds that the digits behind the point write; digits beyond the ninth are dropped. -/
def nanosecondsOf (digits : List Char) : Nat :=
  ofDigits (digits.take 9) * Nat.pow 10 (9 - digits.length)

/-- Read an optional fraction of a second: a point and at least one digit. -/
def readFraction? : Reader Nat
  | '.' :: rest =>
    let digits := rest.takeWhile isDigit
    if digits = [] then none else some (nanosecondsOf digits, rest.dropWhile isDigit)
  | cs => some (0, cs)

/-- Read the sign of an offset: whether it is west of UTC. -/
def readOffsetSign? : Reader Bool
  | '+' :: rest => some (false, rest)
  | '-' :: rest => some (true, rest)
  | '−' :: rest => some (true, rest)
  | _ => none

/-- Read an offset: `Z`, or sign, two digits of hours, a separator and two of minutes. -/
def readOffset? (separator : Reader Unit) : Reader Int
  | 'Z' :: rest => some (0, rest)
  | 'z' :: rest => some (0, rest)
  | cs => do
    let (west, cs) ← readOffsetSign? cs
    let (hours, cs) ← readNumber? 2 2 cs
    let ((), cs) ← separator cs
    let (minutes, cs) ← readNumber? 2 2 cs
    if minutes < 60 then
      some (if west then -(hours * 3600 + minutes * 60 : Int) else hours * 3600 + minutes * 60, cs)
    else none

/-- The second and the nanoseconds of it that are meant by written ones: the sixtieth second is the
leap second of its minute. -/
def secondOf (second nanosecond : Nat) : Nat × Nat :=
  if second = 60 then (59, 1000000000 + nanosecond) else (second, nanosecond)

/-- Read the fields of a date and time to the end of the text, given a reader for every kind of
field. -/
def readFields? (year : Reader Int) (field : Reader Nat) (separator : Char → Reader Unit)
    (offset : Reader Int) (cs : List Char) : Option (Reading × List Char) := do
  let (year, cs) ← year cs
  let ((), cs) ← separator '-' cs
  let (month, cs) ← field cs
  let ((), cs) ← separator '-' cs
  let (day, cs) ← field cs
  let ((), cs) ← readDateEnd? cs
  let (hour, cs) ← field cs
  let ((), cs) ← separator ':' cs
  let (minute, cs) ← field cs
  let ((), cs) ← separator ':' cs
  let (second, cs) ← field cs
  let (nanosecond, cs) ← readFraction? cs
  let (offset, cs) ← offset cs
  let (second, nanosecond) := secondOf second nanosecond
  some ({ year, month, day, hour, minute, second, nanosecond, offset }, cs)

/-- Read a year of four digits. -/
def readYear? : Reader Int := fun cs => (readNumber? 4 4 cs).map fun (n, rest) => ((n : Int), rest)

/-- Read a date in the notation of RFC 3339. -/
def readDateTime? (text : String) : Option DateTime := do
  let (reading, rest) ←
    readFields? readYear? (readNumber? 2 2) readChar? (readOffset? (readChar? ':')) text.toList
  if rest = [] then DateTime.ofReading? reading else none

/-! ## The lenient notation -/

/-- Pass over blanks, then read. -/
def afterBlanks {α : Type} (reader : Reader α) : Reader α := fun cs => reader (cs.dropWhile isBlank)

/-- Read a year: up to four digits, or a sign and any number of digits. -/
def readLongYear? : Reader Int
  | '-' :: rest => (readNumber? 1 rest.length rest).map fun (n, rest) => (-(n : Int), rest)
  | '+' :: rest => (readNumber? 1 rest.length rest).map fun (n, rest) => ((n : Int), rest)
  | cs => (readNumber? 1 4 cs).map fun (n, rest) => ((n : Int), rest)

/-- Pass over colons and blanks, if any. -/
def passColons : Reader Unit := fun cs => some ((), cs.dropWhile fun c => c = ':' || isBlank c)

/-- Read an offset, or `UTC` in any case. -/
def readNamedOffset? : Reader Int := fun cs =>
  if (cs.take 3).map Char.toUpper = ['U', 'T', 'C'] then some (0, cs.drop 3)
  else readOffset? passColons cs

/-- Read a date in the lenient notation. -/
def readLenientDateTime? (text : String) : Option DateTime := do
  let (reading, rest) ←
    readFields? (afterBlanks readLongYear?) (afterBlanks (readNumber? 1 2))
      (fun c => afterBlanks (readChar? c)) (afterBlanks readNamedOffset?) text.toList
  if rest.dropWhile isBlank = [] then DateTime.ofReading? reading else none

end ContentQuery.Time
