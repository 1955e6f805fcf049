import ContentQuery.Filter.Batch
import ContentQuery.Json.Text

/-!
# Configurations in JSON

A configuration is a record of settings, each of which can be left out and then has its standard
value.
-/

namespace ContentQuery.Json

open ContentQuery.Filter Number

/-- Read a setting, or take its standard value. -/
def settingOr {α : Type} (standard : α) (read : Document → Option α) : Option Document → Option α
  | some d => read d
  | none => some standard

namespace Document

/-- The policy for unbound selectors. -/
def policy? (d : Document) : Option Policy := do
  match ← d.fields? ["strict_selectors", "required_selectors"] with
  | [strict, required] =>
    let strict ← settingOr Policy.lenient.strict boolean? strict
    let required ← settingOr [] (items? text?) required
    some ((Policy.mk strict []).requireAll (required.map SelectorName.mk))
  | _ => none

/-- The kind of an executor. -/
def executorKind? (d : Document) : Option ExecutorKind := do
  let tag ← d.tag? false
  ExecutorKind.all.find? (·.keyword == tag)

/-- The size of a pool, or `null` for none of its own. -/
def workerThreads? : Document → Option (Option Nat)
  | null => some none
  | d => (d.natural? (Nat.pow 2 64)).map some

/-- The settings of a filter. -/
def config? (d : Document) : Option Config := do
  match ← d.fields? ["executor", "worker_threads", "evaluation"] with
  | [executor, workerThreads, policy] =>
    let executor ← settingOr Config.standard.executor executorKind? executor
    let workerThreads ← settingOr Config.standard.workerThreads workerThreads? workerThreads
    let policy ← settingOr Config.standard.policy policy? policy
    some ⟨executor, workerThreads, policy⟩
  | _ => none

end Document

/-- Read the settings of a filter from a text. -/
def readConfig (text : String) : Except FilterError Config :=
  match (Document.ofText? text).bind Document.config? with
  | some config => .ok config
  | none => .error .unreadableConfig

/-! ## Writing -/

/-- A policy as a record. -/
def policyForm (policy : Policy) : String :=
  objectText [
    ("strict_selectors", if policy.strict then "true" else "false"),
    ("required_selectors", arrayText (policy.required.map fun s => stringText s.text))]

/-- Settings as a record. -/
def configForm (config : Config) : String :=
  objectText [
    ("executor", stringText config.executor.keyword),
    ("worker_threads", (config.workerThreads.map decimalText).getD "null"),
    ("evaluation", policyForm config.policy)]

end ContentQuery.Json
