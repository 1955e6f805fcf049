import ContentQuery.Text.Quoted

/-!
# Why a name or path cannot be read or written
-/

namespace ContentQuery.Naming

open Text

/-- Why a text is not a name. -/
inductive NameFault
  /-- The closing brace of the namespace URI is missing. -/
  | openUri
  /-- There is no local part. -/
  | emptyLocalPart
  /-- The local part holds a character with a meaning of its own. -/
  | illegalCharacter
  /-- The local part is a step that stays or climbs. -/
  | dots
  deriving DecidableEq

/-- Why a text is not a path. -/
inductive PathFault
  /-- There is no text. -/
  | empty
  /-- A sibling index is zero. -/
  | zeroIndex
  /-- This rest of the text does not continue a path. -/
  | unexpected (rest : String)
  deriving DecidableEq

/-- Why a name or path cannot be read or written. -/
inductive ResolveError
  | unknownPrefix (label text : String)
  | unknownNamespace (uri : String)
  | invalidName (text : String) (fault : NameFault)
  | invalidPath (text : String) (fault : PathFault)
  deriving DecidableEq

/-- The reason in words. -/
def NameFault.message : NameFault → String
  | openUri => "unterminated namespace URI"
  | emptyLocalPart => "local part is empty"
  | illegalCharacter => "local part contains an illegal character"
  | dots => "'.' and '..' are not names"

/-- The reason in words. -/
def PathFault.message : PathFault → String
  | empty => "path is empty"
  | zeroIndex => "same-name-sibling index must be at least 1"
  | unexpected rest => parsingError rest "Eof"

/-- The error in words. -/
def ResolveError.message : ResolveError → String
  | unknownPrefix label text =>
    "Unknown namespace prefix '" ++ label ++ "' in '" ++ text ++ "'"
  | unknownNamespace uri => "No prefix registered for namespace '" ++ uri ++ "'"
  | invalidName text fault => "Invalid name '" ++ text ++ "': " ++ fault.message
  | invalidPath text fault => "Invalid path '" ++ text ++ "': " ++ fault.message

end ContentQuery.Naming
