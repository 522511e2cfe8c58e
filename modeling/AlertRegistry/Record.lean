import AlertRegistry.RowError
import AlertRegistry.Search.Basic
import AlertRegistry.Store.Reading
import AlertRegistry.Uuid

/-!
# Records and their rows

The registry keeps two kinds of records, alerts and expressions, in the same manner. `Record` says
what a kind has to offer: how a record becomes a row and back, and how rows lie in the database. On
top of it this module reads rows: all of a query's page (`fetchPage`), one by its key (`findRow`),
or its version alone (`storedVersion`).
-/

namespace AlertRegistry

/-- The kinds of records. -/
inductive Entity where
  /-- Alerts. -/
  | alert
  /-- Expressions. -/
  | expression
deriving DecidableEq, Repr

/-- The name of the kind. -/
def Entity.name : Entity → String
  | alert => "alert"
  | expression => "expression"

/-- The name of the table of the kind. -/
def Entity.table : Entity → String
  | alert => "alerts"
  | expression => "expressions"

/-- A kind of record `α` with its rows `ρ` and the columns `γ` of its table. -/
class Record (α : Type) (ρ γ : outParam Type) where
  /-- The kind. -/
  entity : Entity
  /-- The identifier of a record. -/
  id : α → Uuid
  /-- The row of a record that is not stored yet. -/
  toRow : α → Except RecordError ρ
  /-- The record that a row denotes. -/
  ofRow : ρ → Except RowError α
  /-- The key of a row. -/
  key : ρ → String
  /-- The version of a row, 0 if it is not stored yet. -/
  version : ρ → Int
  /-- The row with another version. -/
  withVersion : ρ → Int → ρ
  /-- The stamps of a row. -/
  stamps : ρ → Int × Int
  /-- The table of the rows. -/
  table : Database → Table γ
  /-- The column of the version. -/
  versionColumn : γ
  /-- The row in a tuple of the table. -/
  readRow : Database → Tuple γ → Except StoreError ρ
  /-- The tuples that a query asks for. -/
  filter : Strategy → Query → Filter γ
  /-- How these tuples are searched. -/
  search : Search table readRow filter
  /-- Appends a row at a time. -/
  insert : Int → ρ → Statement
  /-- Replaces the stored row with the same key and version at a time. -/
  replace : Int → ρ → Statement
  /-- Writes what is kept beside a row in another table. -/
  writeBeside : Option (ρ → Statement)
  /-- Removes what is kept beside the rows, for all of them. -/
  clearBeside : Option Statement
  /-- Removes all rows. -/
  clear : Statement
  /-- A query as it is shown. -/
  describe : Query → String
  /-- The outcome of a query is shown. -/
  reportsQueries : Bool

section

variable (α : Type) {ρ γ : Type} [Layout γ] [Record α ρ γ]

/-- The number of rows. -/
def countRows (db : Database) : Nat :=
  (Record.table α db).tuples.length

/-- How records of the kind are searched. -/
abbrev searchOf : Search (Record.table α) (Record.readRow α) (Record.filter α) :=
  Record.search

/-- The page of rows that a query asks for. -/
def fetchPage (strategy : Strategy) (q : Query) (db : Database) : Except StoreError (Page ρ) :=
  (searchOf α).fetch strategy q db

/-- The row under a key. -/
def findRow (key : String) (db : Database) : Except StoreError (Option ρ) :=
  match (Record.table α db).find? (.text key) with
  | none => .ok none
  | some t => (Record.readRow α db t).map some

/-- The version of the row under a key. -/
def storedVersion (key : String) (db : Database) : Except StoreError (Option Int) :=
  match (Record.table α db).find? (.text key) with
  | none => .ok none
  | some t =>
    ((t (Record.versionColumn α)).readInteger 0 (Layout.name (Record.versionColumn α))).map some

/-- The etag of a page. -/
def Page.etag (p : Page ρ) : String :=
  etagOfStamps (p.rows.map (Record.stamps α))

end

end AlertRegistry
