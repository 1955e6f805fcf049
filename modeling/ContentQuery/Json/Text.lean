import ContentQuery.Json.Document
import ContentQuery.Text.Quoted

/-!
# The text of documents

A text is cut into tokens, and the tokens are read with a stack of the arrays and objects that are
still open. Words, that is numbers and `true`, `false` and `null`, end at a blank or a mark, so two
words can never touch.

`Document.ofText?` reads a text and `stringText` writes a string.
-/

namespace ContentQuery.Json

open Number

/-! ## Strings -/

/-- The value of a hexadecimal digit in either case. -/
def hexValue? (c : Char) : Option Nat :=
  if isDigit c then some (digitValue c)
  else if 'a' ≤ c ∧ c ≤ 'f' then some (c.toNat - 'a'.toNat + 10)
  else if 'A' ≤ c ∧ c ≤ 'F' then some (c.toNat - 'A'.toNat + 10)
  else none

/-- The number that hexadecimal digits write. -/
def hexNumber? (cs : List Char) : Option Nat :=
  cs.foldlM (fun n c => (hexValue? c).map (16 * n + ·)) 0

/-- The character that an escape of one letter stands for. -/
def escaped? : Char → Option Char
  | '"' => some '"'
  | '\\' => some '\\'
  | '/' => some '/'
  | 'b' => some '\x08'
  | 'f' => some '\x0c'
  | 'n' => some '\n'
  | 'r' => some '\r'
  | 't' => some '\t'
  | _ => none

/-- Split a text behind an opening quote into the units of the string, which are code points,
escaped ones maybe halves of a surrogate pair, and what follows the closing quote. -/
def splitString? : List Char → Option (List Nat × List Char)
  | [] => none
  | '"' :: rest => some ([], rest)
  | '\\' :: 'u' :: a :: b :: c :: d :: rest => do
    let unit ← hexNumber? [a, b, c, d]
    let (units, after) ← splitString? rest
    some (unit :: units, after)
  | '\\' :: letter :: rest => do
    let c ← escaped? letter
    let (units, after) ← splitString? rest
    some (c.toNat :: units, after)
  | c :: rest =>
    if c.toNat < 0x20 then none
    else do
      let (units, after) ← splitString? rest
      some (c.toNat :: units, after)

/-- Whether a unit is the first half of a surrogate pair. -/
def isHighSurrogate (unit : Nat) : Bool := 0xD800 ≤ unit && unit ≤ 0xDBFF

/-- Whether a unit is the second half of a surrogate pair. -/
def isLowSurrogate (unit : Nat) : Bool := 0xDC00 ≤ unit && unit ≤ 0xDFFF

/-- The characters of units, if all surrogates pair up. -/
def charsOfUnits? : List Nat → Option (List Char)
  | [] => some []
  | [unit] =>
    if isHighSurrogate unit || isLowSurrogate unit then none else some [Char.ofNat unit]
  | unit :: next :: rest =>
    if isLowSurrogate unit then none
    else if isHighSurrogate unit then
      if isLowSurrogate next then
        (charsOfUnits? rest).map
          (Char.ofNat (0x10000 + (unit - 0xD800) * 0x400 + (next - 0xDC00)) :: ·)
      else none
    else (charsOfUnits? (next :: rest)).map (Char.ofNat unit :: ·)

/-! ## Tokens -/

/-- The parts of a text between blanks. -/
inductive Token
  | openArray | closeArray | openObject | closeObject | comma | colon
  /-- A string, a number, `true`, `false` or `null`. -/
  | scalar (d : Document)

/-- The token of a mark. -/
def markToken? : Char → Option Token
  | '[' => some .openArray
  | ']' => some .closeArray
  | '{' => some .openObject
  | '}' => some .closeObject
  | ',' => some .comma
  | ':' => some .colon
  | _ => none

/-- Whether a character is a blank between tokens. -/
def isSeparator (c : Char) : Bool := c == ' ' || c == '\t' || c == '\n' || c == '\r'

/-- Whether a character continues a word. -/
def isWordChar (c : Char) : Bool := !isSeparator c && c != '"' && (markToken? c).isNone

/-- The document that a word stands for. -/
def wordDocument? (cs : List Char) : Option Document :=
  match String.ofList cs with
  | "null" => some .null
  | "true" => some (.boolean true)
  | "false" => some (.boolean false)
  | _ => (Numeral.ofWord? cs).map .number

/-- Split off a token, which begins with a character that is no blank. -/
def splitToken? (c : Char) (rest : List Char) : Option (Token × List Char) :=
  if c = '"' then
    (splitString? rest).map fun (units, after) =>
      (.scalar (.string ((charsOfUnits? units).map String.ofList)), after)
  else
    match markToken? c with
    | some mark => some (mark, rest)
    | none =>
      (wordDocument? (c :: rest.takeWhile isWordChar)).map fun d =>
        (.scalar d, rest.dropWhile isWordChar)

private theorem length_splitString {cs after : List Char} {units : List Nat}
    (h : splitString? cs = some (units, after)) : after.length ≤ cs.length := by
  fun_induction splitString? cs generalizing units after with
  | case1 => simp at h
  | case2 rest =>
    simp only [Option.some.injEq, Prod.mk.injEq] at h
    simp [← h.2]
  | case3 a b c d rest ih =>
    simp only [Option.bind_eq_bind, Option.bind_eq_some_iff, Option.some.injEq, Prod.mk.injEq] at h
    obtain ⟨_, _, ⟨_, _⟩, h', _, rfl⟩ := h
    have := ih h'
    simp only [List.length_cons]
    omega
  | case4 letter rest _ ih =>
    simp only [Option.bind_eq_bind, Option.bind_eq_some_iff, Option.some.injEq, Prod.mk.injEq] at h
    obtain ⟨_, _, ⟨_, _⟩, h', _, rfl⟩ := h
    have := ih h'
    simp only [List.length_cons]
    omega
  | case5 => simp at h
  | case6 c rest _ _ _ _ ih =>
    simp only [Option.bind_eq_bind, Option.bind_eq_some_iff, Option.some.injEq, Prod.mk.injEq] at h
    obtain ⟨⟨_, _⟩, h', _, rfl⟩ := h
    have := ih h'
    simp only [List.length_cons]
    omega

private theorem length_splitToken {c : Char} {rest after : List Char} {t : Token}
    (h : splitToken? c rest = some (t, after)) : after.length ≤ rest.length := by
  unfold splitToken? at h
  split at h
  · obtain ⟨⟨units, _⟩, hs, he⟩ := Option.map_eq_some_iff.1 h
    simp only [Prod.mk.injEq] at he
    exact he.2 ▸ length_splitString hs
  · split at h
    · simp only [Option.some.injEq, Prod.mk.injEq] at h
      exact Nat.le_of_eq (congrArg List.length h.2.symm)
    · obtain ⟨d, _, he⟩ := Option.map_eq_some_iff.1 h
      simp only [Prod.mk.injEq] at he
      exact he.2 ▸ (List.dropWhile_sublist _).length_le

/-- The tokens of a text. -/
def tokens? : List Char → Option (List Token)
  | [] => some []
  | c :: rest =>
    if isSeparator c then tokens? rest
    else
      match _h : splitToken? c rest with
      | some (token, after) => (tokens? after).map (token :: ·)
      | none => none
termination_by cs => cs.length
decreasing_by
  · simp
  · have := length_splitToken _h
    simp only [List.length_cons]
    omega

/-! ## Reading -/

/-- An array or object that is still open, what it holds so far with the last part in front. -/
inductive Frame
  | array (items : List Document)
  | object (members : List (Option String × Document))
  /-- An object that waits for the value of a member. -/
  | member (name : Option String) (members : List (Option String × Document))

/-- What can come next. -/
inductive Expected
  | value
  /-- A value or the end of an empty array. -/
  | firstItem
  | name
  /-- A name or the end of an empty object. -/
  | firstName
  | colon
  /-- A comma or the end of an array or object. -/
  | comma
  deriving DecidableEq

/-- How far reading has come. -/
inductive Progress
  | awaiting (expected : Expected) (stack : List Frame)
  | complete (d : Document)

/-- Put a document where it belongs. -/
def place (d : Document) : List Frame → Progress
  | [] => .complete d
  | .array items :: stack => .awaiting .comma (.array (d :: items) :: stack)
  | .member name members :: stack => .awaiting .comma (.object ((name, d) :: members) :: stack)
  | .object members :: stack => .awaiting .comma (.object members :: stack)

/-- Begin a value. -/
def beginValue (stack : List Frame) : Token → Option Progress
  | .scalar d => some (place d stack)
  | .openArray => some (.awaiting .firstItem (.array [] :: stack))
  | .openObject => some (.awaiting .firstName (.object [] :: stack))
  | _ => none

/-- Begin a member of an object. -/
def beginMember : List Frame → Token → Option Progress
  | .object members :: stack, .scalar (.string name) =>
    some (.awaiting .colon (.member name members :: stack))
  | _, _ => none

/-- End an array or object. -/
def endFrame : List Frame → Token → Option Progress
  | .array items :: stack, .closeArray => some (place (.array items.reverse) stack)
  | .object members :: stack, .closeObject => some (place (.object members.reverse) stack)
  | _, _ => none

/-- Read a comma, which tells what can come next. -/
def passComma : List Frame → Token → Option Progress
  | .array items :: stack, .comma => some (.awaiting .value (.array items :: stack))
  | .object members :: stack, .comma => some (.awaiting .name (.object members :: stack))
  | _, _ => none

/-- Read one token. -/
def Progress.read : Progress → Token → Option Progress
  | awaiting .value stack, token => beginValue stack token
  | awaiting .firstItem stack, token => endFrame stack token <|> beginValue stack token
  | awaiting .name stack, token => beginMember stack token
  | awaiting .firstName stack, token => endFrame stack token <|> beginMember stack token
  | awaiting .colon stack, .colon => some (awaiting .value stack)
  | awaiting .comma stack, token => endFrame stack token <|> passComma stack token
  | _, _ => none

/-- Read a text. -/
def Document.ofText? (text : String) : Option Document :=
  match (tokens? text.toList).bind (List.foldlM Progress.read (.awaiting .value [])) with
  | some (.complete d) => some d
  | _ => none

/-! ## Writing -/

/-- A control character in hexadecimal. -/
def controlEscape (c : Char) : List Char :=
  ['\\', 'u', '0', '0', Nat.digitChar (c.toNat / 16), Nat.digitChar (c.toNat % 16)]

/-- A character inside a string. -/
def writtenChar (c : Char) : List Char :=
  match c with
  | '"' => ['\\', '"']
  | '\\' => ['\\', '\\']
  | '\x08' => ['\\', 'b']
  | '\x0c' => ['\\', 'f']
  | '\n' => ['\\', 'n']
  | '\r' => ['\\', 'r']
  | '\t' => ['\\', 't']
  | c => if c.toNat < 0x20 then controlEscape c else [c]

/-- A string between quotes. -/
def stringText (text : String) : String :=
  String.ofList (['"'] ++ text.toList.flatMap writtenChar ++ ['"'])

/-- An array. -/
def arrayText (items : List String) : String := "[" ++ String.intercalate "," items ++ "]"

/-- An object. -/
def objectText (members : List (String × String)) : String :=
  Text.braced (String.intercalate "," (members.map fun member => stringText member.1 ++ ":" ++ member.2))

end ContentQuery.Json
