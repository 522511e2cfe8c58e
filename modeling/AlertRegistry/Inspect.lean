import AlertRegistry.Alert.Record
import AlertRegistry.Expression.Record
import AlertRegistry.Logging.Basic
import AlertRegistry.Repository.Basic
import AlertRegistry.Store.Placement

/-!
# Inspecting a store

An inspection opens the store that a configuration names and tells the version of the registry,
where the store is, and how many alerts and expressions it holds. If the configuration cannot be
read, or the log or the store cannot be opened, there is nothing to tell.
-/

namespace AlertRegistry

/-- What an inspection tells, with the log after it. -/
structure Inspection where
  /-- The lines, none if the inspection failed. -/
  lines : Option (List String)
  /-- The log. -/
  log : Log

/-- The files after a store among them was opened, with the catalog that this gave. A store that was
missing is empty if opening it failed. -/
def FileTree.afterOpening (t : FileTree) (found : Found) (result : Except AccessError Catalog) :
    FileTree :=
  match found.medium, found.file.bind (·.mapM Text.ofBytes?) with
  | .file c, some place | .fixed c _, some place =>
    t.put place (.store (result.toOption.getD c) found.database)
  | _, _ => t

/-- A repository with the strategy that a configuration names, and what the log is told; none if the
name is unknown. -/
def Repository.ofConfig (α : Type) {ρ γ : Type} [Record α ρ γ] (identity : Nat)
    (c : RepositoryConfig) : Except ConfigError (Repository α × List Event) :=
  match Strategy.ofName c.strategy with
  | .error e => .error (.strategy e)
  | .ok strategy =>
    let r : Repository α := { identity, strategy }
    .ok (r, [r.configured])

/-- A repository with the strategy of a configuration. -/
def RepositoryConfig.repository (α : Type) (c : RepositoryConfig) (identity : Nat) : Repository α :=
  { identity, strategy := (Strategy.ofName? c.strategy).getD .generic }

/-- Opens a repository: the open one, and what the log is told. -/
def openRepository {α ρ γ : Type} [Record α ρ γ] (r : Repository α) : Repository α × List Event :=
  match r.start with
  | (.ok r, events) => (r, events)
  | (.error _, events) => (r, events)

/-- The report that a store was inspected. -/
def inspected : Event :=
  ⟨.info, Event.describe "cli_inspect" "cli" "ok" []⟩

/-- Inspects the store of a configuration from a directory; opening it takes some milliseconds. -/
def inspect (c : Config) (place : List String) (elapsed : Nat) (l : Log) : Inspection :=
  match l.startFromConfig c.logging with
  | (.error _, l) => { lines := none, log := l }
  | (.ok _, l) =>
    let found := l.allFiles.medium place c.database.path
    let (result, opened) := found.medium.connect elapsed
    let l := { l with files := l.files.afterOpening found result }.record opened
    match result with
    | .error _ => { lines := none, log := l }
    | .ok _ =>
      let store : Store := { committed := found.database }
      let newAlerts := c.alerts.repository Alert 0
      let newExpressions := c.expressions.repository Expression 1
      let (alerts, alertsOpened) := openRepository newAlerts
      let (expressions, expressionsOpened) := openRepository newExpressions
      let alertCount := alerts.count store
      let expressionCount := expressions.count alertCount.store
      let l := l.record ([newAlerts.configured, newExpressions.configured] ++ alertsOpened
        ++ expressionsOpened ++ alertCount.events ++ expressionCount.events)
      match alertCount.result, expressionCount.result with
      | .ok n, .ok m =>
        { lines := some ["portal_core version=" ++ version,
            "database=" ++ c.database.path.getD ":memory:",
            "alerts=" ++ toString n,
            "expressions=" ++ toString m]
          log := l.record (inspected :: (expressions.stop.2 ++ alerts.stop.2)) }
      | _, _ => { lines := none, log := l }

end AlertRegistry
