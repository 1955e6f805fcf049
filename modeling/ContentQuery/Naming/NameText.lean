import ContentQuery.Naming.Registry
import ContentQuery.Naming.ResolveError
import ContentQuery.Text.Split

/-!
# Names in text

A name is written `prefix:local`, or `local` alone where the prefix is empty. It is read in that
form or in the expanded form, whose URI needs no prefix.
-/

namespace ContentQuery.Naming

open Text

/-- The characters that no local part may hold. -/
def illegalInLocalPart : List Char := ['/', ':', '[', ']', '|', '*', '{', '}']

/-- Why a text cannot be a local part. -/
def localPartFault? (localPart : List Char) : Option NameFault :=
  if localPart = [] then some .emptyLocalPart
  else if localPart.any illegalInLocalPart.contains then some .illegalCharacter
  else if localPart = ['.'] ∨ localPart = ['.', '.'] then some .dots
  else none

/-- The local part itself, if it can be one; `text` is the name it was found in. -/
def checkLocalPart (text : String) (localPart : List Char) : Except ResolveError String :=
  match localPartFault? localPart with
  | some fault => .error (.invalidName text fault)
  | none => .ok (String.ofList localPart)

/-- The prefix and the local part of a name in prefixed form. -/
def splitPrefix (cs : List Char) : List Char × List Char := (splitAtFirst? ':' cs).getD ([], cs)

namespace Registry

/-- Read a name. The local part is checked before the prefix is looked up. -/
def readName (r : Registry) (text : String) : Except ResolveError Name :=
  match text.toList with
  | '{' :: rest =>
    match splitAtFirst? '}' rest with
    | none => .error (.invalidName text .openUri)
    | some (uri, localPart) => do
      let localPart ← checkLocalPart text localPart
      return ⟨String.ofList uri, localPart⟩
  | cs => do
    let (label, localPart) := splitPrefix cs
    let localPart ← checkLocalPart text localPart
    match r.uriOf? (String.ofList label) with
    | some uri => return ⟨uri, localPart⟩
    | none => throw (.unknownPrefix (String.ofList label) text)

/-- Write a name, if its namespace has a prefix. -/
def nameText (r : Registry) (name : Name) : Except ResolveError String :=
  match r.prefixOf? name.uri with
  | none => .error (.unknownNamespace name.uri)
  | some label => .ok (if label = "" then name.localPart else label ++ ":" ++ name.localPart)

end Registry

end ContentQuery.Naming
