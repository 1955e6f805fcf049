import ContentQuery.Naming.Name
import ContentQuery.Number.Decimal

/-!
# Paths

A path is a list of steps, taken from the root if it is absolute. Steps stay, climb to the parent,
or descend to a child, which is told from its siblings of the same name by an index counted from
one.

`join` appends paths, `normalize?` removes the steps that stay and cancels climbs against descents,
and `expanded` writes a path without a registry.
-/

namespace ContentQuery.Naming

open Number

/-- One step of a path. -/
inductive Step
  /-- Stay at the node. -/
  | current
  /-- Climb to the parent. -/
  | parent
  /-- Descend to the child with this name, counted among the siblings of that name. -/
  | named (name : Name) (index : UInt32)
  deriving DecidableEq

namespace Step

/-- The step to a child; an index of zero means the first. -/
def child (name : Name) (index : UInt32) : Step := .named name (max index 1)

/-- The name a step descends to. -/
def name? : Step → Option Name
  | named name _ => some name
  | _ => none

/-- The kinds of step in their order. -/
def rank : Step → Nat
  | current => 0
  | parent => 1
  | named .. => 2

/-- Steps are ordered by kind, then by name and index. -/
def compare (a b : Step) : Ordering :=
  match a, b with
  | named m i, named n j => (Ord.compare m n).then (Ord.compare i j)
  | a, b => Ord.compare a.rank b.rank

instance : Ord Step := ⟨compare⟩

/-- The text of a step, given that of its name; the index one is not written. -/
def textWith (nameText : String) (index : UInt32) : String :=
  if 1 < index then nameText ++ "[" ++ decimalText index.toNat ++ "]" else nameText

/-- The expanded form of a step. -/
def expanded : Step → String
  | current => "."
  | parent => ".."
  | named name index => textWith name.expanded index

end Step

/-- A path through the tree. -/
structure Path where
  /-- Whether the path starts at the root. -/
  absolute : Bool
  steps : List Step
  deriving DecidableEq

namespace Path

/-- Relative paths come before absolute ones; then the steps decide. -/
instance : Ord Path := ⟨compareLex (compareOn Path.absolute) (compareOn Path.steps)⟩

/-- The path of the root. -/
def root : Path := ⟨true, []⟩

/-- Whether this is the path of the root. -/
def isRoot (p : Path) : Bool := p.absolute && p.steps.isEmpty

/-- The name of the last step, if it has one. -/
def name? (p : Path) : Option Name := p.steps.getLast?.bind Step.name?

/-- The second path, taken from where the first one leads. -/
def join (p q : Path) : Path := if q.absolute then q else ⟨p.absolute, p.steps ++ q.steps⟩

/-- The path, taken from the root if it is relative. -/
def toAbsolute (p : Path) : Path := if p.absolute then p else root.join p

/-- Take the steps in turn onto a stack, the last one on top: a climb takes the descent
on top away. A climb that finds none stays on the stack of a relative path and is
impossible in an absolute one. -/
def normalizeOnto? (absolute : Bool) : List Step → List Step → Option (List Step)
  | stack, [] => some stack
  | stack, .current :: rest => normalizeOnto? absolute stack rest
  | .named _ _ :: stack, .parent :: rest => normalizeOnto? absolute stack rest
  | stack, .parent :: rest =>
    if absolute then none else normalizeOnto? absolute (.parent :: stack) rest
  | stack, .named name index :: rest => normalizeOnto? absolute (.named name index :: stack) rest

/-- The path without steps that stay and with climbs cancelled; none if it climbs above the root. -/
def normalize? (p : Path) : Option Path :=
  (normalizeOnto? p.absolute [] p.steps).map fun stack => ⟨p.absolute, stack.reverse⟩

/-- Join the texts of steps: a slash between any two of them, and before the first of an absolute
path. -/
def textOfSteps (absolute : Bool) (texts : List String) : String :=
  (if absolute then "/" else "") ++ String.intercalate "/" texts

/-- The expanded form of a path. -/
def expanded (p : Path) : String := textOfSteps p.absolute (p.steps.map Step.expanded)

end Path

end ContentQuery.Naming
