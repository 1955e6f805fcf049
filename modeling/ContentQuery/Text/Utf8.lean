/-!
# Reading bytes as UTF-8, faults included

Every text can be read from bytes: whatever is not UTF-8 is shown as U+FFFD. One mark stands for
each longest run of bytes that could have begun a character, and for each byte that begins none. The
reader is an automaton whose state says how many bytes the current character still needs and in
which interval the next one must lie.
-/

namespace ContentQuery.Text

/-- What the bytes read so far ask of the next one. -/
structure Utf8State where
  /-- Bytes the current character still needs; none between characters. -/
  owed : Nat
  /-- The least byte that may come next. -/
  least : Nat
  /-- The greatest byte that may come next. -/
  greatest : Nat
  /-- The bits gathered for the current character. -/
  bits : Nat

/-- The state between two characters. -/
def Utf8State.start : Utf8State := ⟨0, 0, 0, 0⟩

/-- The mark for bytes that are not text. -/
def replacement : Char := '\ufffd'

/-- What the first byte of a longer character asks for, if it begins one. -/
def Utf8State.lead? (b : Nat) : Option Utf8State :=
  if 0xC2 ≤ b ∧ b ≤ 0xDF then some ⟨1, 0x80, 0xBF, b - 0xC0⟩
  else if b = 0xE0 then some ⟨2, 0xA0, 0xBF, 0⟩
  else if b = 0xED then some ⟨2, 0x80, 0x9F, 0xD⟩
  else if 0xE1 ≤ b ∧ b ≤ 0xEF then some ⟨2, 0x80, 0xBF, b - 0xE0⟩
  else if b = 0xF0 then some ⟨3, 0x90, 0xBF, 0⟩
  else if 0xF1 ≤ b ∧ b ≤ 0xF3 then some ⟨3, 0x80, 0xBF, b - 0xF0⟩
  else if b = 0xF4 then some ⟨3, 0x80, 0x8F, 4⟩
  else none

/-- Read a byte between characters: what is written, and the state after it. -/
def Utf8State.begin (b : Nat) : List Char × Utf8State :=
  if b < 0x80 then ([Char.ofNat b], .start)
  else
    match lead? b with
    | some state => ([], state)
    | none => ([replacement], .start)

/-- Read one byte: what is written, and the state after it. A byte that does not continue the
current character ends it with a mark and is read again as a first byte. -/
def Utf8State.step (state : Utf8State) (b : Nat) : List Char × Utf8State :=
  if state.owed = 0 then begin b
  else if state.least ≤ b ∧ b ≤ state.greatest then
    let bits := state.bits * 64 + b % 64
    if state.owed = 1 then ([Char.ofNat bits], .start)
    else ([], ⟨state.owed - 1, 0x80, 0xBF, bits⟩)
  else
    let (written, next) := begin b
    (replacement :: written, next)

/-- Read the bytes from a state, closing an unfinished character with a mark. -/
def readUtf8From (state : Utf8State) : List UInt8 → List Char
  | [] => if state.owed = 0 then [] else [replacement]
  | b :: rest =>
    let (written, next) := state.step b.toNat
    written ++ readUtf8From next rest

/-- The text of a byte sequence, with U+FFFD for whatever is not UTF-8. -/
def readUtf8 (bytes : List UInt8) : String := String.ofList (readUtf8From .start bytes)

end ContentQuery.Text
