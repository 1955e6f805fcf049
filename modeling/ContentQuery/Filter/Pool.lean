import ContentQuery.Evaluation.Policy

/-!
# Pools of workers

A pool runs a function on every item of a batch and may finish the items in any order. Each item is
sent with its place, and the results are put back in order by their places.
-/

namespace ContentQuery.Filter

/-- How a batch is spread over workers. -/
inductive ExecutorKind
  /-- One item after another. -/
  | sequential
  /-- Items spread over several workers. -/
  | parallel
  deriving DecidableEq

/-- All kinds. -/
def ExecutorKind.all : List ExecutorKind := [sequential, parallel]

/-- The kind in a configuration. -/
def ExecutorKind.keyword : ExecutorKind → String
  | sequential => "sync"
  | parallel => "rayon"

/-- The name of the executor of a kind. -/
def ExecutorKind.executorName : ExecutorKind → String
  | sequential => "SyncExecutor"
  | parallel => "RayonExecutor"

/-- A pool of workers. -/
structure Pool where
  kind : ExecutorKind
  /-- The number of workers; none for a shared pool whose size is not ours. -/
  workers : Option Nat
  deriving DecidableEq

/-- Why there is no pool. -/
inductive PoolError
  | invalidWorkerCount (count : Nat)
  deriving DecidableEq

/-- The error in words. -/
def PoolError.message : PoolError → String
  | invalidWorkerCount count => "Invalid worker count: " ++ Number.decimalText count

namespace Pool

/-- The pool of one worker. -/
def sequential : Pool := ⟨.sequential, some 1⟩

/-- A pool of several workers, at least one of them, or the shared pool. -/
def parallel (workers : Option Nat) : Except PoolError Pool :=
  if workers = some 0 then .error (.invalidWorkerCount 0) else .ok ⟨.parallel, workers⟩

/-- The name of the executor. -/
def name (pool : Pool) : String := pool.kind.executorName

end Pool

/-- A way to run a function on all items of a batch, each of them once, that returns the results in
the order in which they were finished. -/
abbrev Executor (α β : Type) := List α → (α → β) → List β

/-- What is asked of an executor for a batch: the results of all items, in whatever order. -/
def Executor.RunsOnce {α β : Type} (execute : Executor α β) (items : List α) : Prop :=
  ∀ f, (execute items f).Perm (items.map f)

/-- The executor that takes the items in turn. -/
def inTurn {α β : Type} : Executor α β := fun items f => items.map f

/-- Run a function on every item and return the results in the order of the items, whatever order
the executor finished them in. -/
def evaluateInOrder {α β : Type} (execute : Executor (α × Nat) (β × Nat)) (items : List α)
    (f : α → β) : List β :=
  let finished := execute items.zipIdx fun item => (f item.1, item.2)
  (finished.mergeSort fun a b => a.2 ≤ b.2).map Prod.fst

end ContentQuery.Filter
