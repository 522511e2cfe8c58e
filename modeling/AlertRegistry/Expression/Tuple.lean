import AlertRegistry.Database.Basic
import AlertRegistry.Expression.Row
import AlertRegistry.Query
import AlertRegistry.Search.Basic
import AlertRegistry.Store.Reading

/-!
# Expression rows in the database

A row is kept as a tuple of the table of expressions. Versions and stamps develop as those of alerts
do. A query for expressions does not look at a context.
-/

namespace AlertRegistry.ExpressionRow

/-- The tuple of a row with the given version and stamps. -/
def tuple (r : ExpressionRow) (version createdAt updatedAt : Cell) : Tuple ExpressionColumn
  | .id => .text r.id
  | .version => version
  | .createdAt => createdAt
  | .updatedAt => updatedAt
  | .cluster => .text r.cluster
  | .service => .text r.service
  | .metric => .text r.metric
  | .script => .text r.script

/-- The row in a tuple. -/
def ofTuple (t : Tuple ExpressionColumn) : Except StoreError ExpressionRow := do
  return {
    id := ← t.readText .id
    version := ← t.readInteger .version
    createdAt := ← t.readInteger .createdAt
    updatedAt := ← t.readInteger .updatedAt
    cluster := ← t.readText .cluster
    service := ← t.readText .service
    metric := ← t.readText .metric
    script := ← t.readText .script }

/-- The tuples that a query asks for. -/
def filter (strategy : Strategy) (q : Query) : Filter ExpressionColumn :=
  Filter.equals .cluster q.cluster ++ Filter.equals .service q.service
    ++ Filter.contains strategy [.cluster, .service, .metric] q.needle

/-! ## Searches -/

/-- The name of a column in the conditions of searches. -/
def qualifiedName (c : ExpressionColumn) : String :=
  "e." ++ Layout.name c

/-- The criteria of a search for expressions. -/
def criteria (strategy : Strategy) (q : Query) : List (Criterion ExpressionColumn) :=
  [.equals .cluster q.cluster, .equals .service q.service,
    .contains strategy [.cluster, .service, .metric] q.needle]

/-- The expressions. -/
def source (db : Database) : Source :=
  .ofTable qualifiedName "e.rowid" db.expressions

/-- The row with the named cells. -/
def ofNamed (row : Tuple String) : Except StoreError ExpressionRow :=
  ofTuple fun c => row (qualifiedName c)

theorem named_qualifiedName (t : Tuple ExpressionColumn) (c : ExpressionColumn) :
    t.named qualifiedName (qualifiedName c) = t c := by
  cases c <;> rfl

theorem shows_source (db : Database) :
    (source db).Shows qualifiedName db.expressions.tuples (Tuple.named qualifiedName) :=
  Source.shows_ofTable (fun c => by cases c <;> decide) named_qualifiedName

theorem ofNamed_named (t : Tuple ExpressionColumn) :
    ofNamed (t.named qualifiedName) = ofTuple t := by
  unfold ofNamed
  simp only [named_qualifiedName]

/-- How expressions are searched. -/
def search : Search Database.expressions (fun _ => ofTuple) filter where
  name := qualifiedName
  rowNumber := "e.rowid"
  criteria
  counted := source
  paged := source
  readNamed := ofNamed
  isName c := by cases c <;> decide
  isName_rowNumber := by decide
  columns_ne_nil strategy q := by
    simp [criteria, Criterion.columns]
  filter_eq strategy q := by
    simp [criteria, Criterion.filter, filter]
  shows_counted db := ⟨_, shows_source db⟩
  rowNumber_paged _ := rfl
  shows_paged db := ⟨_, shows_source db, ofNamed_named⟩

/-! ## Writing -/

/-- Appends a row that is not stored yet, at the time `now`. -/
def insert (now : Int) (r : ExpressionRow) : Statement :=
  Database.insertExpression (r.tuple (.integer 1) (.integer now) (.integer now))

/-- Replaces the stored row with the key and version of `r`, at the time `now`. -/
def replace (now : Int) (r : ExpressionRow) : Statement :=
  Database.updateExpressions (fun t => t .id = .text r.id && t .version = .integer r.version)
    fun t => r.tuple (.next r.version) (t .createdAt) (Cell.later (t .createdAt) (.integer now))

end AlertRegistry.ExpressionRow
