import ContentQuery.Naming.PathText
import ContentQuery.Value.Basic
import ContentQuery.Value.LikePattern

/-!
# Comparing values

`compareValues` compares a value that was found with a fixed one, which is first brought to the type
of the found value; a pair that cannot be brought together satisfies no operator. `naturalOrder`
orders values of all types among each other and is what results are sorted by.
-/

namespace ContentQuery

open Naming Number

/-- A comparison operator. -/
inductive Operator
  | equalTo | notEqualTo | lessThan | lessThanOrEqualTo | greaterThan | greaterThanOrEqualTo | like
  deriving DecidableEq

namespace Operator

/-- All operators. -/
def all : List Operator :=
  [equalTo, notEqualTo, lessThan, lessThanOrEqualTo, greaterThan, greaterThanOrEqualTo, like]

/-- The operator in a statement. -/
def symbol : Operator → String
  | equalTo => "="
  | notEqualTo => "<>"
  | lessThan => "<"
  | lessThanOrEqualTo => "<="
  | greaterThan => ">"
  | greaterThanOrEqualTo => ">="
  | like => "LIKE"

/-- The constant that names the operator in programs. -/
def constant : Operator → String
  | equalTo => "jcr.operator.equal.to"
  | notEqualTo => "jcr.operator.not.equal.to"
  | lessThan => "jcr.operator.less.than"
  | lessThanOrEqualTo => "jcr.operator.less.than.or.equal.to"
  | greaterThan => "jcr.operator.greater.than"
  | greaterThanOrEqualTo => "jcr.operator.greater.than.or.equal.to"
  | like => "jcr.operator.like"

/-- Whether the operator holds for values in this order; patterns are not decided by order. -/
def holds : Operator → Ordering → Bool
  | equalTo, o => o == .eq
  | notEqualTo, o => o != .eq
  | lessThan, o => o == .lt
  | lessThanOrEqualTo, o => o != .gt
  | greaterThan, o => o == .gt
  | greaterThanOrEqualTo, o => o != .lt
  | like, _ => false

end Operator

namespace Value

/-- The text of any value, names and paths in prefixed form. -/
def lexical (names : Registry) : Value → Except ResolveError String
  | name n => names.nameText n
  | path p => names.pathText p
  | v => .ok (v.lexicalForm?.getD "")

/-- The number a fixed value offers to a numeric comparison: dates offer none. -/
def numeric? (v : Value) : Option Double :=
  match v with
  | long _ | double _ | string _ => v.toDouble?
  | _ => none

/-- Compare a found text with a fixed value. -/
def compareText (names : Registry) (text : String) (fixed : Value) :
    Except ResolveError (Option Ordering) :=
  match fixed with
  | name _ | path _ => do return some (compare text (← fixed.lexical names))
  | _ => .ok (fixed.lexicalForm?.map (compare text))

/-- Compare a found value with a fixed one, brought to the type of the found one; none if it cannot
be. -/
def compareValues (names : Registry) (found fixed : Value) :
    Except ResolveError (Option Ordering) :=
  match found, fixed with
  | long a, long b => .ok (some (compare a.toInt b.toInt))
  | long _, _ | double _, _ =>
    .ok (do (← found.toDouble?).compare? (← fixed.numeric?))
  | date a, _ => .ok (fixed.toDate?.map a.compareInstant)
  | boolean a, _ => .ok (fixed.toBoolean?.map (compare a))
  | name a, name b => .ok (some (compare a b))
  | name a, string text => do return some (compare a (← names.readName text))
  | path a, path b => .ok (some (compare a b))
  | path a, string text => do return some (compare a (← names.readPath text))
  | name _, _ | path _, _ => .ok none
  | binary a, binary b => .ok (some (compare a b))
  | binary a, _ => .ok (fixed.lexicalForm?.map fun text => compare a text.toUTF8.data.toList)
  | string a, _ => compareText names a fixed
  | reference a, _ => compareText names a fixed

/-- Whether an operator holds between a found value and a fixed one. -/
def satisfies (names : Registry) (op : Operator) (found fixed : Value) :
    Except ResolveError Bool :=
  match op with
  | .like => do
    let text ← found.lexical names
    let pattern ← fixed.lexical names
    return LikePattern.isMatch pattern text
  | _ => do
    match ← compareValues names found fixed with
    | some ordering => return op.holds ordering
    | none => return false

/-- The groups in which values of different kinds are sorted. -/
def typeRank (v : Value) : Nat :=
  match v.type with
  | .boolean => 0
  | .long | .double => 1
  | .date => 2
  | .string => 3
  | .reference => 4
  | .name => 5
  | .path => 6
  | .binary => 7

/-- The order of all values: integers exactly, other numbers by the total order of doubles, every
other type among itself, and different kinds by group. -/
def naturalOrder (a b : Value) : Ordering :=
  match a, b with
  | long m, long n => compare m.toInt n.toInt
  | long m, double y => Double.compareTotal (.ofInt m.toInt) y
  | double x, long n => Double.compareTotal x (.ofInt n.toInt)
  | double x, double y => Double.compareTotal x y
  | boolean x, boolean y => compare x y
  | date x, date y => x.compareInstant y
  | string x, string y => compare x y
  | reference x, reference y => compare x y
  | name x, name y => compare x y
  | path x, path y => compare x y
  | binary x, binary y => compare x y
  | _, _ => compare a.typeRank b.typeRank

end Value

end ContentQuery
