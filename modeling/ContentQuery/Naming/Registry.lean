import ContentQuery.Naming.Name

/-!
# The namespace registry

A registry keeps two maps, the URI of each prefix and the prefix of each URI. Registering a pair
enters it in both, and takes from each map what the other one has lost.
-/

namespace ContentQuery.Naming

/-- A map from texts to texts: each key with its value, the latest first. -/
structure TextMap where
  entries : List (String × String)

namespace TextMap

/-- The value of a key. -/
def get? (m : TextMap) (key : String) : Option String := m.entries.lookup key

/-- Take out a key. -/
def erase (m : TextMap) (key : String) : TextMap :=
  ⟨m.entries.filter fun entry => entry.1 != key⟩

/-- Take out the key there may be. -/
def eraseOption (m : TextMap) : Option String → TextMap
  | some key => m.erase key
  | none => m

/-- Give a key its value, in place of the value it had. -/
def insert (m : TextMap) (key value : String) : TextMap := ⟨(key, value) :: (m.erase key).entries⟩

end TextMap

/-- The URIs of prefixes and the prefixes of URIs. -/
structure Registry where
  uris : TextMap
  prefixes : TextMap

namespace Registry

/-- A registry in which nothing is registered. -/
def empty : Registry := ⟨⟨[]⟩, ⟨[]⟩⟩

/-- The URI of a prefix. -/
def uriOf? (r : Registry) (label : String) : Option String := r.uris.get? label

/-- The prefix of a URI. -/
def prefixOf? (r : Registry) (uri : String) : Option String := r.prefixes.get? uri

/-- The prefix a URI has besides the given one, once the URI of that one has been given up. -/
def otherPrefix? (r : Registry) (label uri : String) : Option String :=
  ((r.prefixes.eraseOption (r.uriOf? label)).get? uri).filter (· != label)

/-- Pair a prefix with a URI. The prefix gives up its old URI, and the URI its old prefix. -/
def register (r : Registry) (label uri : String) : Registry where
  uris := (r.uris.insert label uri).eraseOption (r.otherPrefix? label uri)
  prefixes := (r.prefixes.eraseOption (r.uriOf? label)).insert uri label

/-- Register pairs in order. -/
def registerAll (r : Registry) (pairs : List (String × String)) : Registry :=
  pairs.foldl (fun r pair => r.register pair.1 pair.2) r

/-- The registry a repository starts with. -/
def standard : Registry :=
  registerAll empty [
    ("", ""),
    ("jcr", "http://www.jcp.org/jcr/1.0"),
    ("nt", "http://www.jcp.org/jcr/nt/1.0"),
    ("mix", "http://www.jcp.org/jcr/mix/1.0"),
    ("sv", "http://www.jcp.org/jcr/sv/1.0"),
    ("xml", "http://www.w3.org/XML/1998/namespace")]

end Registry

end ContentQuery.Naming
