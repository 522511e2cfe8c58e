import AlertRegistry.Schema.Catalog

/-!
# Changing the schema of a file

A `SchemaFile` is one connection to the schema of a file. Outside a transaction each statement
counts by itself. In a transaction the statements change a catalog of its own, one after the other;
a statement that fails leaves what those before it did. Only `commit` makes that catalog the one of
the file, and `rollback` drops it.
-/

namespace AlertRegistry

/-- A change of a catalog, or the reason why there is none. -/
abbrev SchemaStatement := Catalog → Except StoreError Catalog

/-- One connection to the schema of a file. -/
structure SchemaFile where
  /-- The catalog that the file has. -/
  committed : Catalog
  /-- The catalog of the transaction, if there is one. -/
  work : Option Catalog := none

namespace SchemaFile

/-- The outcome of an operation with the file after it. -/
abbrev Step := Except StoreError Unit × SchemaFile

/-- The catalog as the connection sees it. -/
def view (f : SchemaFile) : Catalog :=
  f.work.getD f.committed

/-- Starts a transaction. -/
def begin (f : SchemaFile) : Step :=
  match f.work with
  | none => (.ok (), { f with work := some f.committed })
  | some _ => (.error .nested, f)

/-- Runs a statement. -/
def execute (f : SchemaFile) (statement : SchemaStatement) : Step :=
  match statement f.view with
  | .error e => (.error e, f)
  | .ok c =>
    match f.work with
    | none => (.ok (), { f with committed := c })
    | some _ => (.ok (), { f with work := some c })

/-- Runs statements up to the first that fails. -/
def executeAll (f : SchemaFile) : List SchemaStatement → Step
  | [] => (.ok (), f)
  | statement :: statements =>
    match f.execute statement with
    | (.error e, f) => (.error e, f)
    | (.ok (), f) => f.executeAll statements

/-- Makes the catalog of the transaction the one of the file. -/
def commit (f : SchemaFile) : Step :=
  match f.work with
  | none => (.error .nothingToCommit, f)
  | some c => (.ok (), { committed := c })

/-- Drops the catalog of the transaction. -/
def rollback (f : SchemaFile) : SchemaFile :=
  { f with work := none }

end SchemaFile

end AlertRegistry
