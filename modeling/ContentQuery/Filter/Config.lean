import ContentQuery.Filter.Pool

/-!
# The configuration of a filter
-/

namespace ContentQuery.Filter

/-- The settings of a filter. -/
structure Config where
  executor : ExecutorKind
  /-- The size of a pool of the filter's own. -/
  workerThreads : Option Nat
  policy : Policy
  deriving DecidableEq

namespace Config

/-- The settings that hold where nothing else is said. -/
def standard : Config := ⟨.parallel, none, .lenient⟩

/-- The pool the settings ask for. -/
def pool (config : Config) : Except PoolError Pool :=
  match config.executor with
  | .sequential => .ok Pool.sequential
  | .parallel => Pool.parallel config.workerThreads

end Config

end ContentQuery.Filter
