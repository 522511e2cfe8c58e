import AlertRegistry.Database.Basic
import AlertRegistry.Filter.Condition
import AlertRegistry.Page
import AlertRegistry.Query
import AlertRegistry.Search.Selection

/-!
# Searches

A `Search` says how the tuples of a table are searched: what the condition of a query is made of,
and what the two statements of a search select from. One counts the rows that satisfy the condition,
and one reads those of them that are on a page. The second source may have more columns than the
first, but both show the tuples of the table one for one; these laws are part of a search.
-/

namespace AlertRegistry

/-- How the tuples of a table are searched, which are read by `readRow` and selected by `filter`. -/
structure Search {ρ γ : Type} (table : Database → Table γ)
    (readRow : Database → Tuple γ → Except StoreError ρ)
    (filter : Strategy → Query → Filter γ) where
  /-- The name of a column. -/
  name : γ → String
  /-- The name of the number in whose order pages are read. -/
  rowNumber : String
  /-- What a query asks for, criterion by criterion. -/
  criteria : Strategy → Query → List (Criterion γ)
  /-- What is counted. -/
  counted : Database → Source
  /-- What pages are read from. -/
  paged : Database → Source
  /-- The row of records with the named cells. -/
  readNamed : Tuple String → Except StoreError ρ
  isName (c : γ) : Text.IsName (name c)
  isName_rowNumber : Text.IsName rowNumber
  columns_ne_nil (strategy : Strategy) (q : Query) : ∀ a ∈ criteria strategy q, a.columns ≠ []
  filter_eq (strategy : Strategy) (q : Query) :
    filter strategy q = (criteria strategy q).flatMap Criterion.filter
  shows_counted (db : Database) : ∃ rowOf, (counted db).Shows name (table db).tuples rowOf
  rowNumber_paged (db : Database) : (paged db).rowNumber = rowNumber
  shows_paged (db : Database) : ∃ rowOf, (paged db).Shows name (table db).tuples rowOf
    ∧ ∀ t, readNamed (rowOf t) = readRow db t

namespace Search

variable {ρ γ : Type} {table : Database → Table γ}
  {readRow : Database → Tuple γ → Except StoreError ρ} {filter : Strategy → Query → Filter γ}
  (S : Search table readRow filter)

/-- The condition of a query. -/
def condition (strategy : Strategy) (q : Query) : Condition :=
  Condition.ofCriteria S.name (S.criteria strategy q)

/-- The values for the placeholders of the condition. -/
def values (strategy : Strategy) (q : Query) : List Cell :=
  (S.condition strategy q).binds.map .text

/-- The text of the statement that counts. -/
def countText (strategy : Strategy) (q : Query) : String :=
  (S.condition strategy q).text ++ ";"

/-- The text of the statement that reads a page. -/
def pageText (strategy : Strategy) (q : Query) : String :=
  (S.condition strategy q).text ++ " ORDER BY " ++ S.rowNumber ++ " ASC LIMIT ? OFFSET ?;"

/-- The values for the length of a page and for the number of rows before it. -/
def pageValues (q : Query) : List Cell :=
  [.integer (max q.limit 1).toNat, .integer (rowsBefore q.offset q.limit)]

/-- The page of rows that a query asks for: the rows are counted first. -/
def fetch (strategy : Strategy) (q : Query) (db : Database) : Except StoreError (Page ρ) := do
  let total ← (S.counted db).count (S.countText strategy q) (S.values strategy q)
  let rows ← (S.paged db).page (S.pageText strategy q) (S.values strategy q ++ pageValues q)
    S.readNamed
  return { rows, total }

end Search

end AlertRegistry
