import ContentQuery.Evaluation.Operand

/-!
# Sorting tuples

The key of a tuple holds the first value of every ordering operand. A missing value, also for want
of a node, comes before all others; a descending criterion reverses its column. Tuples with equal
keys keep their order.
-/

namespace ContentQuery

/-- Insert an element into a list with the last element in front, behind all that it does not come
before. -/
def insertFromLast {α : Type} (isBefore : α → α → Bool) (x : α) : List α → List α
  | [] => [x]
  | y :: rest => if isBefore x y then y :: insertFromLast isBefore x rest else x :: y :: rest

/-- Sort a list, keeping the order of elements of which none comes before the other. -/
def stableSort {α : Type} (isBefore : α → α → Bool) (xs : List α) : List α :=
  (xs.foldl (fun sorted x => insertFromLast isBefore x sorted) []).reverse

/-- Compare two entries of a key; a missing value comes first. -/
def compareEntries (direction : Direction) (a b : Option Value) : Ordering :=
  let natural := match a, b with
    | none, none => .eq
    | none, some _ => .lt
    | some _, none => .gt
    | some v, some w => v.naturalOrder w
  match direction with
  | .ascending => natural
  | .descending => natural.swap

/-- Compare two keys, the first column that differs deciding. -/
def compareKeys : List Direction → List (Option Value) → List (Option Value) → Ordering
  | direction :: directions, a :: as, b :: bs =>
    (compareEntries direction a b).then (compareKeys directions as bs)
  | _, _, _ => .eq

namespace Context

/-- The entry of a key for one criterion. -/
def keyEntry (ctx : Context) (tuple : NodeTuple) (criterion : SortCriterion) :
    Eval (Option Value) :=
  match ctx.values tuple criterion.operand with
  | .ok values => .ok values.head?
  | .error (.selectorNotBound _) => .ok none
  | .error e => .error e

/-- The key of a tuple. -/
def sortKey (ctx : Context) (orderings : List SortCriterion) (tuple : NodeTuple) :
    Eval (List (Option Value)) :=
  orderings.mapM (ctx.keyEntry tuple)

/-- Sort tuples by their keys; without orderings they stay as they are. -/
def sortTuples (ctx : Context) (orderings : List SortCriterion) (tuples : List NodeTuple) :
    Eval (List NodeTuple) := do
  if orderings = [] then return tuples
  else
    let keyed ← tuples.mapM fun tuple => do return (← ctx.sortKey orderings tuple, tuple)
    let isBefore := fun (a b : List (Option Value) × NodeTuple) =>
      compareKeys (orderings.map SortCriterion.direction) a.1 b.1 == .lt
    return (stableSort isBefore keyed).map Prod.snd

end Context

end ContentQuery
