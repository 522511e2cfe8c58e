import AlertRegistry.Alert.Row
import AlertRegistry.Database.Basic
import AlertRegistry.Query
import AlertRegistry.Search.Basic
import AlertRegistry.Store.Reading

/-!
# Alert rows in the database

A row is kept as a tuple of the table of alerts and, if it has a side-record, a tuple of that table
under the same key. The first write gives a row the version 1 and equal stamps. A further write
replaces everything but the key and the first stamp, if the stored version is the expected one.
Reading takes the side-record first and then the columns of the alert in their order.

A search counts alerts by themselves, but reads them from a join with the side-records, which are
looked up by their key.
-/

namespace AlertRegistry

/-- The tuple of a side-record under a key. -/
def SideRecord.tuple (id : String) (r : SideRecord) : Tuple SideColumn
  | .alertId => .text id
  | .severity => (r.severity.map .text).getD .null
  | .recipient => (r.recipient.map .text).getD .null
  | .attempts => (r.attempts.map .integer).getD .null
  | .freshness => (r.freshness.map .integer).getD .null

/-- The side-record in a tuple that is read after an alert. A tuple without key is none. -/
def SideRecord.ofTuple (t : Tuple SideColumn) : Except StoreError (Option SideRecord) := do
  match ← (t .alertId).readText? 13 "nagios_alert_id" with
  | none => return none
  | some _ =>
    return some {
      severity := ← (t .severity).readText? 14 (Layout.name SideColumn.severity)
      recipient := ← (t .recipient).readText? 15 (Layout.name SideColumn.recipient)
      attempts := ← (t .attempts).readInteger? 16 (Layout.name SideColumn.attempts)
      freshness := ← (t .freshness).readInteger? 17 (Layout.name SideColumn.freshness) }

/-- The name of a column beside an alert. -/
def SideRecord.qualifiedName (c : SideColumn) : String :=
  "n." ++ Layout.name c

theorem SideRecord.named_qualifiedName (t : Tuple SideColumn) (c : SideColumn) :
    t.named qualifiedName (qualifiedName c) = t c := by
  cases c <;> rfl

namespace AlertRow

/-- The tuple of a row with the given version and stamps. -/
def tuple (r : AlertRow) (version createdAt updatedAt : Cell) : Tuple AlertColumn
  | .id => .text r.id
  | .version => version
  | .createdAt => createdAt
  | .updatedAt => updatedAt
  | .name => .text r.name
  | .cluster => .text r.cluster
  | .service => .text r.service
  | .context => .text r.context
  | .metric => .text r.metric
  | .statistic => .text r.statistic
  | .period => .text r.period
  | .operator => .text r.operator
  | .quantity => .text r.quantity

/-- The row in a tuple and the tuple of its side-record. -/
def ofTuple (t : Tuple AlertColumn) (side : Option (Tuple SideColumn)) :
    Except StoreError AlertRow := do
  let side ← match side with
    | none => .ok none
    | some s => SideRecord.ofTuple s
  return {
    id := ← t.readText .id
    version := ← t.readInteger .version
    createdAt := ← t.readInteger .createdAt
    updatedAt := ← t.readInteger .updatedAt
    name := ← t.readText .name
    cluster := ← t.readText .cluster
    service := ← t.readText .service
    context := ← t.readText .context
    metric := ← t.readText .metric
    statistic := ← t.readText .statistic
    period := ← t.readText .period
    operator := ← t.readText .operator
    quantity := ← t.readText .quantity
    side }

/-- The row in a tuple of the database. -/
def read (db : Database) (t : Tuple AlertColumn) : Except StoreError AlertRow :=
  ofTuple t (db.sides.find? (Table.keyOf t))

/-- The tuples that a query asks for. -/
def filter (strategy : Strategy) (q : Query) : Filter AlertColumn :=
  Filter.equals .cluster q.cluster ++ Filter.equals .service q.service
    ++ Filter.equals .context (q.context.map Context.name)
    ++ Filter.contains strategy [.name, .cluster, .service, .metric] q.needle

/-! ## Searches -/

/-- The name of a column in the conditions of searches. -/
def qualifiedName (c : AlertColumn) : String :=
  "a." ++ Layout.name c

/-- The criteria of a search for alerts. -/
def criteria (strategy : Strategy) (q : Query) : List (Criterion AlertColumn) :=
  [.equals .cluster q.cluster, .equals .service q.service,
    .equals .context (q.context.map Context.name),
    .contains strategy [.name, .cluster, .service, .metric] q.needle]

/-- The alerts by themselves. -/
def source (db : Database) : Source :=
  .ofTable qualifiedName "a.rowid" db.alerts

/-- The side-record under the key of an alert. -/
def partner? (db : Database) (row : Tuple String) : Option (Tuple String) :=
  (db.sides.find? (row (qualifiedName .id))).map (Tuple.named SideRecord.qualifiedName)

/-- The alerts with their side-records beside them. -/
def joinedSource (db : Database) : Source :=
  (source db).leftJoin ((Layout.columns : List SideColumn).map SideRecord.qualifiedName)
    fun row => (partner? db row).toList

/-- The row with the named cells. -/
def ofNamed (row : Tuple String) : Except StoreError AlertRow :=
  ofTuple (fun c => row (qualifiedName c)) (some fun c => row (SideRecord.qualifiedName c))

theorem named_qualifiedName (t : Tuple AlertColumn) (c : AlertColumn) :
    t.named qualifiedName (qualifiedName c) = t c := by
  cases c <;> rfl

theorem shows_source (db : Database) :
    (source db).Shows qualifiedName db.alerts.tuples (Tuple.named qualifiedName) :=
  Source.shows_ofTable (fun c => by cases c <;> decide) named_qualifiedName

/-- The alert in a tuple, with its side-record beside it. -/
def joined (db : Database) (t : Tuple AlertColumn) : Tuple String :=
  Source.beside (source db).columns (t.named qualifiedName)
    ((partner? db (t.named qualifiedName)).getD Source.nulls)

theorem shows_joinedSource (db : Database) :
    (joinedSource db).Shows qualifiedName db.alerts.tuples (joined db) :=
  (shows_source db).leftJoin _ (partner? db)

/-- A tuple without values is that of no side-record. -/
theorem ofTuple_nulls (t : Tuple AlertColumn) :
    ofTuple t (some fun c => Source.nulls (SideRecord.qualifiedName c)) = ofTuple t none :=
  rfl

/-- No column of a side-record is called like one of an alert. -/
theorem qualifiedName_notMem (db : Database) (c : SideColumn) :
    SideRecord.qualifiedName c ∉ (source db).columns := by
  show _ ∉ (Layout.columns : List AlertColumn).map qualifiedName
  cases c <;> decide

/-- What is read of an alert and its partner is what is read of its tuple. -/
theorem ofNamed_joined (db : Database) (t : Tuple AlertColumn) :
    ofNamed (joined db t) = read db t := by
  have hside (c : SideColumn) : joined db t (SideRecord.qualifiedName c)
      = (partner? db (t.named qualifiedName)).getD Source.nulls (SideRecord.qualifiedName c) := by
    unfold joined Source.beside
    rw [if_neg (qualifiedName_notMem db c)]
  unfold ofNamed read
  simp only [(shows_joinedSource db).cells, hside]
  unfold partner?
  rw [named_qualifiedName]
  show _ = ofTuple t (db.sides.find? (t .id))
  cases db.sides.find? (t .id) with
  | none => exact ofTuple_nulls t
  | some s =>
    simp only [Option.map_some, Option.getD_some, SideRecord.named_qualifiedName]

/-- How alerts are searched. -/
def search : Search Database.alerts read filter where
  name := qualifiedName
  rowNumber := "a.rowid"
  criteria
  counted := source
  paged := joinedSource
  readNamed := ofNamed
  isName c := by cases c <;> decide
  isName_rowNumber := by decide
  columns_ne_nil strategy q := by
    simp [criteria, Criterion.columns]
  filter_eq strategy q := by
    simp [criteria, Criterion.filter, filter]
  shows_counted db := ⟨_, shows_source db⟩
  rowNumber_paged _ := rfl
  shows_paged db := ⟨_, shows_joinedSource db, ofNamed_joined db⟩

/-! ## Writing -/

/-- Appends a row that is not stored yet, at the time `now`. -/
def insert (now : Int) (r : AlertRow) : Statement :=
  Database.insertAlert (r.tuple (.integer 1) (.integer now) (.integer now))

/-- Replaces the stored row with the key and version of `r`, at the time `now`. -/
def replace (now : Int) (r : AlertRow) : Statement :=
  Database.updateAlerts (fun t => t .id = .text r.id && t .version = .integer r.version) fun t =>
    r.tuple (.next r.version) (t .createdAt) (Cell.later (t .createdAt) (.integer now))

/-- Writes the side-record of a row, or removes it if the row has none. -/
def writeSide (r : AlertRow) : Statement :=
  match r.side with
  | some side => Database.putSide (side.tuple r.id)
  | none => Database.deleteSides fun t => t .alertId = .text r.id

end AlertRow

end AlertRegistry
