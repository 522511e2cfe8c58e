import AlertRegistry.Logging.Level
import AlertRegistry.Schema.File

/-!
# Migrations

The schema develops in numbered steps. `SchemaFile.migrate` brings a file to the newest version: in
one transaction it takes all steps above the version of the file, and if one of them fails it rolls
back. A file that is newer than the last step is refused. `Catalog.migrate` is this for a file with
a catalog and no transaction.
-/

namespace AlertRegistry

/-- A step of the schema. -/
structure SchemaStep where
  /-- The version after the step. -/
  version : Nat
  /-- The name of the step. -/
  name : String
  /-- What the step makes. -/
  objects : List SchemaObject
deriving Repr

/-- The steps in the order of their versions. -/
def schemaSteps : List SchemaStep := [
  { version := 1
    name := "alerts"
    objects := [.table "alerts", .index "idx_alerts_cluster_service",
      .table "alert_nagios_extensions"] },
  { version := 2
    name := "expressions"
    objects := [.table "expressions", .index "idx_expressions_cluster_service"] }]

/-- The version after the last step. -/
def latestVersion : Nat :=
  (schemaSteps.getLast?.map SchemaStep.version).getD 0

namespace SchemaStep

/-- The statements of the step: its objects are made, and then the file gets its version. -/
def statements (step : SchemaStep) : List SchemaStatement :=
  step.objects.map (fun o c => c.create o) ++ [fun c => .ok { c with version := step.version }]

/-- The report that the step begins. -/
def started (step : SchemaStep) : Event :=
  ⟨.debug, Event.describe "db_migrate_step" "db" "start"
    [("version", toString step.version), ("name", step.name)]⟩

end SchemaStep

namespace Catalog

/-- The steps that a catalog of a version still needs. -/
def pending (version : Nat) : List SchemaStep :=
  schemaSteps.filter fun step => version < step.version

/-- The report that the catalog has the newest version. -/
def migrated (version : Nat) : Event :=
  ⟨.info, Event.describe "db_migrate" "db" "ok"
    [("from_version", toString version), ("to_version", toString latestVersion)]⟩

end Catalog

namespace SchemaFile

open Catalog (pending migrated)

/-- Takes steps one after the other and reports each that begins. -/
def runSteps (f : SchemaFile) :
    List SchemaStep → Except StoreError Unit × SchemaFile × List Event
  | [] => (.ok (), f, [])
  | step :: steps =>
    match f.executeAll step.statements with
    | (.error e, f) => (.error e, f, [step.started])
    | (.ok (), f) =>
      let (result, f, events) := f.runSteps steps
      (result, f, step.started :: events)

/-- Brings the file to the newest version in one transaction, which is rolled back if that fails. -/
def migrate (f : SchemaFile) : Except AccessError Unit × SchemaFile × List Event :=
  if f.view.version < 0 then (.error (.store (.numberOutOfRange f.view.version)), f, [])
  else
    let version := f.view.version.toNat
    if latestVersion < version then
      (.error (.unsupportedVersion version latestVersion), f, [])
    else if (pending version).isEmpty then (.ok (), f, [])
    else
      match f.begin with
      | (.error e, f) => (.error (.store e), f, [])
      | (.ok (), f) =>
        match f.runSteps (pending version) with
        | (.error e, f, events) => (.error (.store e), f.rollback, events)
        | (.ok (), f, events) =>
          match f.commit with
          | (.error e, f) => (.error (.store e), f.rollback, events)
          | (.ok (), f) => (.ok (), f, events ++ [migrated version])

end SchemaFile

namespace Catalog

/-- Brings a catalog to the newest version: the outcome, and what the file then has. -/
def migrate (c : Catalog) : Except AccessError Unit × Catalog × List Event :=
  let (result, f, events) := SchemaFile.migrate { committed := c }
  (result, f.committed, events)

/-- Brings a catalog to the newest version where no change can be made, for a reason: this fails as
soon as a step is taken. -/
def migrateFixed (c : Catalog) (reason : StoreError) :
    Except AccessError Unit × Catalog × List Event :=
  let (result, newest, events) := c.migrate
  if newest = c then (result, c, events) else (.error (.store reason), c, events.take 1)

end Catalog

end AlertRegistry
