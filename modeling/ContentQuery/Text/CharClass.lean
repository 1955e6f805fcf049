import ContentQuery.Text.Alphabetic
import ContentQuery.Text.Numeric

/-!
# Character classes

Blanks, letters and numbers are the Unicode properties White_Space and Alphabetic and the number
categories. `trim` removes blanks from both ends of a text.
-/

namespace ContentQuery.Text

/-- The code points with the White_Space property. -/
def blank : CodePoints := ⟨[
  (0x9, 0xD), (0x20, 0x20), (0x85, 0x85), (0xA0, 0xA0), (0x1680, 0x1680), (0x2000, 0x200A),
  (0x2028, 0x2029), (0x202F, 0x202F), (0x205F, 0x205F), (0x3000, 0x3000)]⟩

/-- Whether a character separates words: the White_Space property. -/
def isBlank (c : Char) : Bool := blank.contains c

/-- Whether a character is a letter: the Alphabetic property. -/
def isAlphabetic (c : Char) : Bool := alphabetic.contains c

/-- Whether a character is a number of any kind: categories Nd, Nl and No. -/
def isNumeric (c : Char) : Bool := numeric.contains c

/-- Whether a character is a letter or a number. -/
def isAlphanumeric (c : Char) : Bool := isAlphabetic c || isNumeric c

/-- Remove the blanks at the end. -/
def trimEnd (cs : List Char) : List Char := (cs.reverse.dropWhile isBlank).reverse

/-- Remove the blanks at both ends. -/
def trimChars (cs : List Char) : List Char := trimEnd (cs.dropWhile isBlank)

/-- Remove the blanks at both ends of a text. -/
def trim (text : String) : String := String.ofList (trimChars text.toList)

/-- Whether two texts agree up to the case of ASCII letters. -/
def equalsIgnoringAsciiCase (a b : String) : Bool :=
  a.toList.map Char.toLower == b.toList.map Char.toLower

/-- The text with its ASCII letters in upper case. -/
def asciiUpper (text : String) : String := String.ofList (text.toList.map Char.toUpper)

end ContentQuery.Text
