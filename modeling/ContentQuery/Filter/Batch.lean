import ContentQuery.Evaluation.Sort
import ContentQuery.Evaluation.Verdict
import ContentQuery.Filter.Config

/-!
# Filtering batches of tuples

A filter holds a constraint with everything its evaluation reads, and decides batches of tuples. A
batch can be cancelled: every worker looks at a shared flag before it takes up a tuple, so the
outcome depends on what the flag was at each of these looks. Of several tuples without a verdict the
first one in the batch tells why.
-/

namespace ContentQuery.Filter

/-- Why a filter cannot be built, or has no answer. -/
inductive FilterError
  | evaluation (cause : EvalError)
  | query (cause : QueryError)
  | cancelled
  | missingConstraint
  | missingTree
  | executor (cause : PoolError)
  /-- The text of a configuration cannot be read. -/
  | unreadableConfig
  deriving DecidableEq

/-- The error in words; what is wrong with an unreadable text is not told. -/
def FilterError.message : FilterError → String
  | evaluation cause => "Evaluation failed: " ++ cause.message
  | query cause => "Invalid query: " ++ cause.message
  | cancelled => "Batch evaluation was cancelled"
  | missingConstraint =>
    "Filter configuration is invalid: No constraint has been configured. Use `with_constraint`."
  | missingTree =>
    "Filter configuration is invalid: No navigator has been configured. Use `with_navigator`."
  | executor cause => "Executor error: " ++ cause.message
  | unreadableConfig => "JSON parsing error"

/-- A constraint with everything its evaluation reads, and a pool to evaluate it in. -/
structure ConstraintFilter where
  constraint : Constraint
  context : Context
  config : Config
  pool : Pool

/-- The parts a filter is built from; what is left out has a standard value or is an error. -/
structure Parts where
  constraint : Option Constraint
  tree : Option Tree
  names : Option Naming.Registry
  searcher : Option FullText.Searcher
  bindings : Bindings
  config : Config

/-- Build a filter. Scores are taken from the full-text searches of its constraint. -/
def Parts.build (parts : Parts) : Except FilterError ConstraintFilter := do
  let some constraint := parts.constraint | throw .missingConstraint
  let some tree := parts.tree | throw .missingTree
  let pool ← parts.config.pool.mapError .executor
  let context : Context := {
    tree
    names := parts.names.getD .standard
    bindings := parts.bindings
    policy := parts.config.policy
    searcher := parts.searcher.getD FullText.unavailable
    predicates := constraint.fullTextPredicates }
  return { constraint, context, config := parts.config, pool }

/-! ## The cancel flag -/

/-- What happens to the flag of a filter. -/
inductive FlagEvent
  | cancel
  | reset
  /-- A worker looks at the flag before it takes up a tuple. -/
  | check (tuple : Nat)
  deriving DecidableEq

/-- The flag after an event. -/
def FlagEvent.apply (flag : Bool) : FlagEvent → Bool
  | cancel => true
  | reset => false
  | check _ => flag

/-- What the flag was when it was looked at for a tuple. -/
def flagSeen (flag : Bool) (tuple : Nat) : List FlagEvent → Option Bool
  | [] => none
  | event :: rest =>
    if event = .check tuple then some flag else flagSeen (event.apply flag) tuple rest

/-! ## Batches -/

/-- An executor for the tuples of a batch, each with its place, by which the flag is known. -/
abbrev BatchExecutor :=
  Executor ((NodeTuple × Nat) × Nat) (Except FilterError (NodeTuple × Verdict) × Nat)

namespace ConstraintFilter

/-- The verdict for one tuple; the flag is not looked at. -/
def evaluate (filter : ConstraintFilter) (tuple : NodeTuple) : Except FilterError Verdict :=
  (filter.context.verdict tuple filter.constraint).mapError .evaluation

/-- What a worker makes of one tuple, having seen the flag. -/
def attempt (filter : ConstraintFilter) (cancelled : Bool) (tuple : NodeTuple) :
    Except FilterError (NodeTuple × Verdict) :=
  if cancelled then .error .cancelled
  else (filter.evaluate tuple).map fun verdict => (tuple, verdict)

/-- The tuples of a batch with their verdicts, given what the flag was for each of them. -/
def run (filter : ConstraintFilter)
    (execute : BatchExecutor) (cancelled : Nat → Bool) (tuples : List NodeTuple) :
    Except FilterError (List (NodeTuple × Verdict)) :=
  (evaluateInOrder execute tuples.zipIdx fun item =>
    filter.attempt (cancelled item.2) item.1).mapM id

/-- The verdicts for a batch, in its order. -/
def evaluateAll (filter : ConstraintFilter)
    (execute : BatchExecutor) (cancelled : Nat → Bool) (tuples : List NodeTuple) :
    Except FilterError (List Verdict) := do
  return (← filter.run execute cancelled tuples).map Prod.snd

/-- The tuples of a batch that satisfy the constraint, in its order. -/
def select (filter : ConstraintFilter)
    (execute : BatchExecutor) (cancelled : Nat → Bool) (tuples : List NodeTuple) :
    Except FilterError (List NodeTuple) := do
  let decided ← filter.run execute cancelled tuples
  return (decided.filter fun item => item.2.isSatisfied).map Prod.fst

/-- The tuples of a batch that satisfy the constraint, sorted. -/
def selectOrdered (filter : ConstraintFilter)
    (execute : BatchExecutor) (cancelled : Nat → Bool) (tuples : List NodeTuple)
    (orderings : List SortCriterion) : Except FilterError (List NodeTuple) := do
  let selected ← filter.select execute cancelled tuples
  (filter.context.sortTuples orderings selected).mapError .evaluation

end ConstraintFilter

end ContentQuery.Filter
