import ContentQuery.Text.Invisible

/-!
# Text in quotes and in braces

Messages show a piece of input between double quotes. Quotes and backslashes are preceded by a
backslash, the usual controls have their letters, and every other invisible character is written by
its code point, as `\u{200b}`. Records, objects and the URIs of expanded names stand in braces.
-/

namespace ContentQuery.Text

/-- The lower-case hexadecimal digits of a number, without leading zeros. -/
def hexDigits (n : Nat) : List Char := Nat.toDigits 16 n

/-- One character as it stands between the quotes. -/
def quotedChar (c : Char) : List Char :=
  if c = '\x00' then ['\\', '0']
  else if c = '\t' then ['\\', 't']
  else if c = '\r' then ['\\', 'r']
  else if c = '\n' then ['\\', 'n']
  else if c = '\\' then ['\\', '\\']
  else if c = '"' then ['\\', '"']
  else if invisible.contains c then ['\\', 'u', '{'] ++ hexDigits c.toNat ++ ['}']
  else [c]

/-- The characters between double quotes. -/
def quotedChars (cs : List Char) : String :=
  String.ofList (['"'] ++ cs.flatMap quotedChar ++ ['"'])

/-- The text between double quotes. -/
def quoted (text : String) : String := quotedChars text.toList

/-- The text in braces. -/
def braced (text : String) : String := String.ofList (['{'] ++ text.toList ++ ['}'])

/-- The message of a grammar that has stopped: what is left of the input, and the code of the rule. -/
def parsingError (rest code : String) : String :=
  "Parsing Error: Error " ++ braced (" input: " ++ quoted rest ++ ", code: " ++ code ++ " ")

end ContentQuery.Text
