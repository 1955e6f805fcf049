import ContentQuery.Evaluation.Operand

/-!
# Verdicts on constraints and joins

`Context.verdict` decides a constraint for a tuple and `Context.joinVerdict` a join condition.
Conjunctions and disjunctions look at the right side only if the left one leaves it open. The policy
for unbound selectors applies to each condition that is not made of others.
-/

namespace ContentQuery

open Naming

/-- Whether a tuple satisfies a condition. -/
inductive Verdict
  | satisfied | unsatisfied
  deriving DecidableEq

namespace Verdict

/-- The verdict of a test. -/
def ofBool (b : Bool) : Verdict := if b then satisfied else unsatisfied

/-- Whether the verdict is positive. -/
def isSatisfied : Verdict → Bool
  | satisfied => true
  | unsatisfied => false

/-- The opposite verdict. -/
def negate : Verdict → Verdict
  | satisfied => unsatisfied
  | unsatisfied => satisfied

end Verdict

/-- A condition that lacks the node of a selector is not satisfied, unless the selector
is required. -/
def Policy.settle (policy : Policy) (result : Eval Verdict) : Eval Verdict :=
  match result with
  | .error (.selectorNotBound s) =>
    if policy.isRequired s then .error (.selectorNotBound s) else .ok .unsatisfied
  | result => result

namespace Context

/-! ## Values -/

/-- Whether an operator holds between one of the values and a fixed one. The first value that
decides, by holding or by failing to compare, ends the search. -/
def anyValue (ctx : Context) (operator : Operator) (fixed : Value) : List Value → Eval Verdict
  | [] => .ok .unsatisfied
  | v :: rest => do
    if ← Eval.ofResolve (v.satisfies ctx.names operator fixed) then return .satisfied
    else ctx.anyValue operator fixed rest

/-- A comparison. Without a fixed value it is not satisfied, but the operand is read all
the same. -/
def comparison (ctx : Context) (tuple : NodeTuple) (left : DynamicOperand) (operator : Operator)
    (right : StaticOperand) : Eval Verdict := do
  match ← ctx.singleValue right with
  | none => ctx.policy.settle do
    let _ ← ctx.values tuple left
    return .unsatisfied
  | some fixed => ctx.policy.settle do
    let values ← ctx.values tuple left
    ctx.anyValue operator fixed values

/-- Whether a property has values. -/
def propertyExists (ctx : Context) (tuple : NodeTuple) (s : SelectorName) (name : Name) :
    Eval Verdict := do
  let values ← ctx.propertyValues tuple ⟨s, some name⟩
  return .ofBool (!values.isEmpty)

/-- A full-text search. Without an expression it is not satisfied, but the selector must be bound
all the same. -/
def fullText (ctx : Context) (tuple : NodeTuple) (predicate : FullTextPredicate) :
    Eval Verdict := do
  match ← ctx.singleValue predicate.expression with
  | none => ctx.policy.settle do
    let _ ← bound tuple predicate.selector
    return .unsatisfied
  | some v => do
    let expression ← ctx.lexical v
    ctx.policy.settle do
      let node ← bound tuple predicate.selector
      return .ofBool (← Eval.ofSearch (ctx.searcher.search ctx.tree
        ⟨predicate.selector, node, predicate.property, expression⟩))

/-! ## Places in the tree -/

/-- The node at a path, if there is one that shows. -/
def resolve (ctx : Context) (path : Path) : Eval (Option NodeId) :=
  match path.toAbsolute.normalize? with
  | some normal => .ok (ctx.tree.resolve? normal)
  | none => .error (.malformedPath path)

/-- Whether a node lies below another one, at most some steps if a limit is given. -/
def isBelow (ctx : Context) (ancestor node : NodeId) (limit : Option Nat) : Eval Verdict := do
  let top ← Eval.ofNavigation (ctx.tree.depth ancestor)
  let depth ← Eval.ofNavigation (ctx.tree.depth node)
  if depth ≤ top ∨ limit.any (· < depth - top) then return .unsatisfied
  else
    let found ← Eval.ofNavigation (ctx.tree.ancestorAt node top)
    return .ofBool (found == some ancestor)

/-- Whether a node stands in a relation to another one. -/
def related (ctx : Context) (relation : NodeRelation) (node other : NodeId) : Eval Verdict :=
  match relation with
  | .same => .ok (.ofBool (node == other))
  | .child => ctx.isBelow other node (some 1)
  | .descendant => ctx.isBelow other node none

/-- Whether a selector's node stands in a relation to the node at a path. -/
def structural (ctx : Context) (tuple : NodeTuple) (relation : NodeRelation) (s : SelectorName)
    (path : Path) : Eval Verdict := do
  let node ← bound tuple s
  match ← ctx.resolve path with
  | some other => ctx.related relation node other
  | none => return .unsatisfied

/-! ## Constraints -/

/-- Whether a tuple satisfies a constraint. -/
def verdict (ctx : Context) (tuple : NodeTuple) : Constraint → Eval Verdict
  | .and left right => do
    match ← ctx.verdict tuple left with
    | .satisfied => ctx.verdict tuple right
    | .unsatisfied => return .unsatisfied
  | .or left right => do
    match ← ctx.verdict tuple left with
    | .satisfied => return .satisfied
    | .unsatisfied => ctx.verdict tuple right
  | .not constraint => do return (← ctx.verdict tuple constraint).negate
  | .comparison left operator right => ctx.comparison tuple left operator right
  | .exists s name => ctx.policy.settle (ctx.propertyExists tuple s name)
  | .fullText predicate => ctx.fullText tuple predicate
  | .structural relation s path => ctx.policy.settle (ctx.structural tuple relation s path)

/-! ## Joins -/

/-- Whether one of the left values equals one of the right ones. -/
def anyPair (ctx : Context) (left : List Value) : List Value → Eval Verdict
  | [] => .ok .unsatisfied
  | v :: rest => do
    match ← ctx.anyValue .equalTo v left with
    | .satisfied => return .satisfied
    | .unsatisfied => ctx.anyPair left rest

/-- A join on equal property values. -/
def equalJoin (ctx : Context) (tuple : NodeTuple) (left right : PropertyOperand) :
    Eval Verdict := do
  let leftValues ← ctx.propertyValues tuple left
  let rightValues ← ctx.propertyValues tuple right
  ctx.anyPair leftValues rightValues

/-- A join on the same node, or on the node that a path leads to from the second one. -/
def sameNodeJoin (ctx : Context) (tuple : NodeTuple) (s₁ s₂ : SelectorName) (path : Option Path) :
    Eval Verdict := do
  let first ← bound tuple s₁
  let second ← bound tuple s₂
  match path with
  | none => return .ofBool (first == second)
  | some path => do
    let start ← Eval.ofNavigation (ctx.tree.pathOf second)
    match ← ctx.resolve (start.join path) with
    | some target => return .ofBool (first == target)
    | none => return .unsatisfied

/-- A join on two nodes of which one lies below the other. -/
def belowJoin (ctx : Context) (tuple : NodeTuple) (relation : NodeRelation)
    (node ancestor : SelectorName) : Eval Verdict := do
  let node ← bound tuple node
  let ancestor ← bound tuple ancestor
  ctx.related relation node ancestor

/-- Whether a tuple satisfies a join condition. -/
def joinVerdict (ctx : Context) (tuple : NodeTuple) (condition : JoinCondition) : Eval Verdict :=
  ctx.policy.settle <|
    match condition with
    | .equal s₁ p₁ s₂ p₂ => ctx.equalJoin tuple ⟨s₁, some p₁⟩ ⟨s₂, some p₂⟩
    | .sameNode s₁ s₂ path => ctx.sameNodeJoin tuple s₁ s₂ path
    | .childNode child parent => ctx.belowJoin tuple .child child parent
    | .descendantNode descendant ancestor => ctx.belowJoin tuple .descendant descendant ancestor

end Context

end ContentQuery
