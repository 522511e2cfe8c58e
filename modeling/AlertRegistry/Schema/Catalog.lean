import AlertRegistry.Store.Error
import AlertRegistry.Text.Letters

/-!
# Schemas

A `Catalog` is the schema of a file: its version, its tables with their rows, and its indexes.
Tables and indexes share one space of names, in which the case of ASCII letters does not matter.
-/

namespace AlertRegistry

/-- A table of any schema. -/
structure StoredTable where
  /-- The name. -/
  name : String
  /-- The rows, cell by cell. -/
  rows : List (List Cell) := []
deriving DecidableEq

/-- The schema of a file. -/
structure Catalog where
  /-- The version that the file carries. -/
  version : Int := 0
  /-- The tables in the order in which they were made. -/
  tables : List StoredTable := []
  /-- The names of the indexes in the order in which they were made. -/
  indexes : List String := []
deriving DecidableEq

/-- The version that a file carries after it was given one: it has room for 32 bits with a sign, and
a number that does not fit leaves zero. -/
def carriedVersion (n : Int) : Int :=
  if -0x80000000 ≤ n ∧ n < 0x80000000 then n else 0

/-- What a schema step makes. -/
inductive SchemaObject where
  /-- A table without rows. -/
  | table (name : String)
  /-- An index. -/
  | index (name : String)
deriving DecidableEq, Repr

namespace Catalog

/-- There is a table with this name. -/
def hasTable (c : Catalog) (name : String) : Bool :=
  c.tables.any fun t => Text.lower t.name = Text.lower name

/-- There is an index with this name. -/
def hasIndex (c : Catalog) (name : String) : Bool :=
  c.indexes.any fun i => Text.lower i = Text.lower name

/-- Makes an object whose name is free. -/
def create (c : Catalog) : SchemaObject → Except StoreError Catalog
  | .table name =>
    if c.hasTable name then .error (.objectExists "table" name)
    else if c.hasIndex name then .error (.nameTaken "an index" name)
    else .ok { c with tables := c.tables ++ [{ name }] }
  | .index name =>
    if c.hasTable name then .error (.nameTaken "a table" name)
    else if c.hasIndex name then .error (.objectExists "index" name)
    else .ok { c with indexes := c.indexes ++ [name] }

/-- The objects, each by its sort and name, in the order of these texts. -/
def describe (c : Catalog) : List String :=
  ((c.tables.map fun t => "table " ++ t.name) ++ c.indexes.map ("index " ++ ·)).mergeSort
    fun a b => a ≤ b

end Catalog

end AlertRegistry
