import AlertRegistry.Schema.Migration

/-!
# Opening a store

A store is opened in memory or in a file. A new or empty file is an empty catalog. Whatever is
opened is brought to the newest schema before it is used; then references between tables are
enforced, and a locked store is waited for. `Medium.connect` gives the catalog and reports what
happened and how many milliseconds it took.
-/

namespace AlertRegistry

/-- What is found at the place of a store. -/
inductive Medium where
  /-- A store in memory. -/
  | memory
  /-- A file with a catalog. -/
  | file (catalog : Catalog)
  /-- A file with a catalog that cannot be changed, for a reason. -/
  | fixed (catalog : Catalog) (reason : StoreError)
  /-- A file that cannot be read as a store, for a reason. -/
  | unreadable (reason : StoreError)
  /-- No file, nor a place where one can be made. -/
  | absent (path : String)

/-- What holds for every connection. -/
structure ConnectionSettings where
  /-- References between tables are enforced. -/
  foreignKeys : Bool := true
  /-- How long a locked store is waited for, in milliseconds. -/
  busyTimeout : Nat := 5000
deriving Repr

namespace Medium

/-- The name of the sort of store. -/
def mode : Medium → String
  | memory => "memory"
  | _ => "file"

/-- A report about the opening. -/
def report (m : Medium) (level : Level) (status : String) (fields : List (String × String)) :
    Event :=
  ⟨level, Event.describe "db_open" "db" status (("mode", m.mode) :: fields)⟩

/-- The report that the opening failed. -/
def failure (m : Medium) (elapsed : Nat) (code : String) (e : AccessError) : Event :=
  m.report .error "error"
    [("duration_ms", toString elapsed), ("error_code", code), ("error", e.message)]

/-- Reports how the catalog of an open store was brought to the newest schema. -/
def bootstrap (m : Medium) (elapsed : Nat)
    (migration : Except AccessError Unit × Catalog × List Event) :
    Except AccessError Catalog × List Event :=
  match migration with
  | (.ok (), c, events) =>
    (.ok c, events ++ [m.report .info "ok" [("duration_ms", toString elapsed)]])
  | (.error e, _, events) => (.error e, events ++ [m.failure elapsed "db_bootstrap_failed" e])

/-- Opens the store. -/
def connect (m : Medium) (elapsed : Nat) : Except AccessError Catalog × List Event :=
  let started := m.report .info "start" []
  match m with
  | absent path =>
    let e := AccessError.store (.cannotOpen path)
    (.error e, [started, m.failure elapsed "db_open_failed" e])
  | unreadable reason =>
    let e := AccessError.store reason
    (.error e, [started, m.failure elapsed "db_bootstrap_failed" e])
  | memory =>
    let (result, events) := m.bootstrap elapsed (Catalog.migrate {})
    (result, started :: events)
  | file c =>
    let (result, events) := m.bootstrap elapsed c.migrate
    (result, started :: events)
  | fixed c reason =>
    let (result, events) := m.bootstrap elapsed (c.migrateFixed reason)
    (result, started :: events)

end Medium

end AlertRegistry
