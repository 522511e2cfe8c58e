import AlertRegistry.Table.Basic

/-!
# What statements select from

A statement that reads selects from a `Source`: rows with their cells under names, in the order of a
number that has a name as well. The tuples of a table are a source, and so is a left join, where
each row stands beside its partners, or beside nulls if it has none.
-/

namespace AlertRegistry

/-- What a statement selects from. -/
structure Source where
  /-- The names of the columns. -/
  columns : List String
  /-- The name of the number in whose order the rows are. -/
  rowNumber : String
  /-- The rows. -/
  rows : List (Tuple String)

variable {γ : Type}

/-- The tuple with its cells under names, and null under any other name. -/
def Tuple.named [Layout γ] (name : γ → String) (t : Tuple γ) : Tuple String := fun n =>
  (((Layout.columns : List γ).find? fun c => name c = n).map t).getD .null

namespace Source

/-- The tuples of a table. -/
def ofTable [Layout γ] (name : γ → String) (rowNumber : String) (T : Table γ) : Source where
  columns := (Layout.columns : List γ).map name
  rowNumber
  rows := T.tuples.map (Tuple.named name)

/-- The row without values. -/
def nulls : Tuple String := fun _ => .null

/-- The partners of a row that has none are nulls. -/
def orNulls : List (Tuple String) → List (Tuple String)
  | [] => [nulls]
  | rows => rows

/-- The cells of a row under the names of its columns, and those of its partner elsewhere. -/
def beside (columns : List String) (row partner : Tuple String) : Tuple String := fun n =>
  if n ∈ columns then row n else partner n

/-- Each row beside each of its partners, which have further columns. -/
def leftJoin (S : Source) (columns : List String)
    (partners : Tuple String → List (Tuple String)) : Source where
  columns := S.columns ++ columns
  rowNumber := S.rowNumber
  rows := S.rows.flatMap fun row => (orNulls (partners row)).map (beside S.columns row)

/-- There is one row for each of the tuples, in their order, with its cells under the names of their
columns. -/
structure Shows (S : Source) (name : γ → String) (ts : List (Tuple γ))
    (rowOf : Tuple γ → Tuple String) : Prop where
  /-- The names are known. -/
  columns (c : γ) : name c ∈ S.columns
  /-- The rows are those of the tuples. -/
  rows : S.rows = ts.map rowOf
  /-- They have the cells of the tuples. -/
  cells (t : Tuple γ) (c : γ) : rowOf t (name c) = t c

/-- A table shows its tuples, if columns have names of their own. -/
theorem shows_ofTable [Layout γ] {name : γ → String} {rowNumber : String} {T : Table γ}
    (hcolumns : ∀ c, c ∈ (Layout.columns : List γ))
    (hnamed : ∀ (t : Tuple γ) c, t.named name (name c) = t c) :
    (ofTable name rowNumber T).Shows name T.tuples (Tuple.named name) where
  columns c := List.mem_map_of_mem (hcolumns c)
  rows := rfl
  cells := hnamed

/-- A row that has at most one partner comes once in a left join. -/
theorem rows_leftJoin (S : Source) (columns : List String)
    (partner : Tuple String → Option (Tuple String)) :
    (S.leftJoin columns fun row => (partner row).toList).rows
      = S.rows.map fun row => beside S.columns row ((partner row).getD nulls) := by
  show S.rows.flatMap _ = _
  rw [List.map_eq_flatMap]
  congr 1
  funext row
  dsimp only
  cases partner row <;> rfl

/-- A left join with at most one partner for each row shows what the rows show. -/
theorem Shows.leftJoin {S : Source} {name : γ → String} {ts : List (Tuple γ)}
    {rowOf : Tuple γ → Tuple String} (h : S.Shows name ts rowOf) (columns : List String)
    (partner : Tuple String → Option (Tuple String)) :
    (S.leftJoin columns fun row => (partner row).toList).Shows name ts
      fun t => beside S.columns (rowOf t) ((partner (rowOf t)).getD nulls) where
  columns c := List.mem_append_left _ (h.columns c)
  rows := by
    rw [rows_leftJoin, h.rows, List.map_map]
    rfl
  cells t c := by
    unfold beside
    rw [if_pos (h.columns c), h.cells]

end Source

end AlertRegistry
