import ContentQuery.Filter.Batch

/-!
# Schedules of a batch

The workers of a pool take every tuple of a batch through the same steps: one of them looks at the
cancel flag, evaluates the tuple unless the flag was set, and hands in the result. The steps of
different tuples follow each other in any order, and the flag can be set and cleared between any two
of them. A schedule is such an order in which every tuple gets through.
-/

namespace ContentQuery.Filter

/-- How far the workers have come with a tuple. -/
inductive Stage
  | waiting
  /-- The flag has been looked at. -/
  | checked
  | evaluated
  | finished
  deriving DecidableEq

/-- What happens while a batch is worked off. -/
inductive BatchEvent
  /-- The flag is set, cleared or looked at. -/
  | flag (event : FlagEvent)
  /-- A worker evaluates a tuple, unless it has seen the flag set. -/
  | evaluate (tuple : Nat)
  /-- A worker hands in what it has made of a tuple. -/
  | finish (tuple : Nat)
  deriving DecidableEq

namespace BatchEvent

/-- What happens to the flag, if it is concerned. -/
def flagEvent? : BatchEvent → Option FlagEvent
  | flag event => some event
  | _ => none

/-- The tuple that is finished, if one is. -/
def finished? : BatchEvent → Option Nat
  | finish tuple => some tuple
  | _ => none

end BatchEvent

/-- Take a tuple to its next stage; only a tuple at the stage before it can be. -/
def advance? (stages : List Stage) (tuple : Nat) (before after : Stage) : Option (List Stage) :=
  if stages[tuple]? = some before then some (stages.set tuple after) else none

/-- The stages of all tuples after an event, if it can happen. -/
def BatchEvent.step? (stages : List Stage) : BatchEvent → Option (List Stage)
  | flag .cancel => some stages
  | flag .reset => some stages
  | flag (.check tuple) => advance? stages tuple .waiting .checked
  | evaluate tuple => advance? stages tuple .checked .evaluated
  | finish tuple => advance? stages tuple .evaluated .finished

/-- The stages of all tuples after a row of events, if they can happen one after the other. -/
def runEvents? (stages : List Stage) : List BatchEvent → Option (List Stage)
  | [] => some stages
  | event :: rest => (event.step? stages).bind fun stages => runEvents? stages rest

/-- A row of events that takes every tuple of a batch from the first stage to the last. -/
structure Schedule (size : Nat) where
  events : List BatchEvent
  complete : runEvents? (List.replicate size .waiting) events =
    some (List.replicate size .finished)

namespace Schedule

variable {size : Nat}

/-- What happens to the flag. -/
def flagEvents (s : Schedule size) : List FlagEvent := s.events.filterMap BatchEvent.flagEvent?

/-- What the flag is when it is looked at for a tuple. -/
def seen (s : Schedule size) (flag : Bool) (tuple : Nat) : Option Bool :=
  flagSeen flag tuple s.flagEvents

/-- Whether the flag is set when it is looked at for a tuple. -/
def cancelled (s : Schedule size) (flag : Bool) (tuple : Nat) : Bool :=
  s.seen flag tuple == some true

/-- The tuples in the order in which they are finished. -/
def order (s : Schedule size) : List Nat := s.events.filterMap BatchEvent.finished?

/-- The executor that finishes the items of a batch in the order of the schedule. -/
def executor {α β : Type} (s : Schedule size) : Executor α β :=
  fun items f => s.order.filterMap fun place => items[place]?.map f

end Schedule

end ContentQuery.Filter
