import ContentQuery.Naming.NameText
import ContentQuery.Naming.Path

/-!
# Paths in text

A path text is a list of segments with single slashes between them, after a slash of its own if the
path is absolute. A segment is `.`, `..`, or the text of a name with an optional index in brackets.
The text of a name is an expanded name, whose URI may hold any character but the closing brace, or
runs up to the next slash or bracket.

`scanPath` cuts a text into segments and returns what does not continue a path; `readPath` then
reads the names.
-/

namespace ContentQuery.Naming

open Number Text

/-- A segment of a path text, its name not yet read. -/
inductive Segment
  | current
  | parent
  | named (text : List Char) (index : UInt32)
  deriving DecidableEq

namespace Segment

/-- Whether a character can stand in a name text outside a URI. -/
def isPlain (c : Char) : Bool := c != '/' && c != '[' && c != ']'

/-- Split off a URI in braces, braces included. -/
def splitUri (cs : List Char) : List Char × List Char :=
  match cs with
  | '{' :: rest =>
    match splitAtFirst? '}' rest with
    | some (uri, after) => ('{' :: (uri ++ ['}']), after)
    | none => ([], cs)
  | _ => ([], cs)

/-- Split off the text of a name: an optional URI and at least one plain character. -/
def scanName? (cs : List Char) : Option (List Char × List Char) :=
  let (uri, after) := splitUri cs
  let plain := after.takeWhile isPlain
  if plain = [] then none else some (uri ++ plain, after.dropWhile isPlain)

/-- Split off an index: digits in brackets whose number fits 32 bits. -/
def scanIndex? : List Char → Option (UInt32 × List Char)
  | '[' :: rest =>
    match rest.takeWhile isDigit, rest.dropWhile isDigit with
    | digits, ']' :: after =>
      if digits ≠ [] ∧ ofDigits digits < Nat.pow 2 32 then
        some (UInt32.ofNat (ofDigits digits), after)
      else none
    | _, _ => none
  | _ => none

/-- Split off a segment. Dots with an index are a name. -/
def scan? (cs : List Char) : Option (Segment × List Char) :=
  match scanName? cs with
  | none => none
  | some (name, rest) =>
    match scanIndex? rest with
    | some (index, after) => some (named name index, after)
    | none =>
      if name = ['.'] then some (current, rest)
      else if name = ['.', '.'] then some (parent, rest)
      else some (named name 1, rest)

/-! ## Every segment takes at least one character -/

private theorem length_dropWhile_le (p : Char → Bool) (cs : List Char) :
    (cs.dropWhile p).length ≤ cs.length :=
  (List.dropWhile_sublist p).length_le

private theorem length_splitUri (cs : List Char) : (splitUri cs).2.length ≤ cs.length := by
  unfold splitUri
  split
  · next rest =>
    split
    · next uri after h =>
      have := (splitAtFirst?_eq_some h).1
      simp only [this, List.length_cons, List.length_append]
      omega
    · exact Nat.le_refl _
  · exact Nat.le_refl _

private theorem length_scanName {cs name rest : List Char} (h : scanName? cs = some (name, rest)) :
    rest.length < cs.length := by
  simp only [scanName?] at h
  split at h
  · simp at h
  · next hne =>
    simp only [Option.some.injEq, Prod.mk.injEq] at h
    obtain ⟨-, rfl⟩ := h
    have hle := length_splitUri cs
    have hlen := congrArg List.length
      (List.takeWhile_append_dropWhile (p := isPlain) (l := (splitUri cs).2))
    simp only [List.length_append] at hlen
    have hpos := List.length_pos_iff.2 hne
    omega

private theorem length_scanIndex {cs rest : List Char} {index : UInt32}
    (h : scanIndex? cs = some (index, rest)) : rest.length ≤ cs.length := by
  unfold scanIndex? at h
  split at h
  · next r =>
    split at h
    · next after heq =>
      split at h
      · simp only [Option.some.injEq, Prod.mk.injEq] at h
        obtain ⟨-, rfl⟩ := h
        have := length_dropWhile_le isDigit r
        rw [heq] at this
        simp only [List.length_cons] at this ⊢
        omega
      · simp at h
    · simp at h
  · simp at h

/-- What is left after a segment is shorter than the text. -/
theorem length_scan {cs rest : List Char} {segment : Segment}
    (h : scan? cs = some (segment, rest)) : rest.length < cs.length := by
  unfold scan? at h
  split at h
  · simp at h
  · next name mid hn =>
    have hmid := length_scanName hn
    split at h
    · next index after hi =>
      simp only [Option.some.injEq, Prod.mk.injEq] at h
      obtain ⟨-, rfl⟩ := h
      have := length_scanIndex hi
      omega
    · split at h
      · simp only [Option.some.injEq, Prod.mk.injEq] at h
        exact h.2 ▸ hmid
      · split at h <;>
        · simp only [Option.some.injEq, Prod.mk.injEq] at h
          exact h.2 ▸ hmid

/-- Read a segment's name. -/
def read (r : Registry) : Segment → Except ResolveError Step
  | current => .ok .current
  | parent => .ok .parent
  | named text index => do return .child (← r.readName (String.ofList text)) index

end Segment

/-- The segments that follow, each after a slash, and what is left. -/
def scanMore (cs : List Char) : List Segment × List Char :=
  match cs with
  | '/' :: rest =>
    match _h : Segment.scan? rest with
    | some (segment, after) =>
      (segment :: (scanMore after).1, (scanMore after).2)
    | none => ([], cs)
  | _ => ([], cs)
termination_by cs.length
decreasing_by
  all_goals
    have := Segment.length_scan _h
    simp only [List.length_cons]
    omega

/-- The segments of a text, and what is left. -/
def scanSegments (cs : List Char) : List Segment × List Char :=
  match Segment.scan? cs with
  | some (segment, after) => (segment :: (scanMore after).1, (scanMore after).2)
  | none => ([], cs)

/-- Cut a text into its first slash, segments, and what does not continue a path. -/
def scanPath : List Char → Bool × List Segment × List Char
  | '/' :: rest => (true, scanSegments rest)
  | cs => (false, scanSegments cs)

/-- Whether a segment has the index zero. -/
def Segment.hasZeroIndex : Segment → Bool
  | named _ index => index == 0
  | _ => false

namespace Registry

/-- Read a path. A text that is no path is refused first, then an index of zero, then the first name
that cannot be read. -/
def readPath (r : Registry) (text : String) : Except ResolveError Path :=
  if text = "" then .error (.invalidPath text .empty)
  else
    let (absolute, segments, left) := scanPath text.toList
    if left ≠ [] then .error (.invalidPath text (.unexpected (String.ofList left)))
    else if segments.any Segment.hasZeroIndex then .error (.invalidPath text .zeroIndex)
    else do
      let steps ← segments.mapM (Segment.read r)
      return ⟨absolute, steps⟩

/-- Write a step. -/
def stepText (r : Registry) : Step → Except ResolveError String
  | .current => .ok "."
  | .parent => .ok ".."
  | .named name index => do return Step.textWith (← r.nameText name) index

/-- Write a path, if all its namespaces have prefixes. -/
def pathText (r : Registry) (path : Path) : Except ResolveError String := do
  return Path.textOfSteps path.absolute (← path.steps.mapM r.stepText)

end Registry

end ContentQuery.Naming
