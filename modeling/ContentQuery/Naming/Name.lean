import ContentQuery.Text.Quoted

/-!
# Qualified names

A name is a namespace URI and a local part. Its expanded form, `{uri}local`, needs no registry.
-/

namespace ContentQuery.Naming

open Text

/-- A qualified name. -/
structure Name where
  /-- The namespace URI, empty for the default namespace. -/
  uri : String
  /-- The part of the name within its namespace. -/
  localPart : String
  deriving DecidableEq

namespace Name

/-- Names are ordered by namespace, then by local part. -/
instance : Ord Name := ⟨compareLex (compareOn Name.uri) (compareOn Name.localPart)⟩

/-- The name of the root node. -/
def empty : Name := ⟨"", ""⟩

/-- Whether this is the name of the root node. -/
def isEmpty (n : Name) : Bool := n.uri == "" && n.localPart == ""

/-- The expanded form: the URI in braces, unless it is empty, then the local part. -/
def expanded (n : Name) : String :=
  if n.uri = "" then n.localPart else braced n.uri ++ n.localPart

end Name

end ContentQuery.Naming
