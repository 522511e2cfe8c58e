import AlertRegistry.Database.Basic

/-!
# Statements by name

Tables and columns can be addressed by their names, past the repositories. A statement exists only
if the table and the columns do. Rows are selected by a key that is a text.
-/

namespace AlertRegistry

namespace Table

variable {γ : Type} [Layout γ]

/-- Every name is the name of a column. -/
def hasColumns (γ : Type) [Layout γ] (cells : List (String × Cell)) : Bool :=
  cells.all fun m => (Layout.columns : List γ).any fun c => Layout.name c = m.1

/-- The tuple with the named cells, and defaults for the others. -/
def namedTuple (cells : List (String × Cell)) : Tuple γ :=
  fun c => (cells.lookup (Layout.name c)).getD (Layout.default c)

/-- The tuple with the named cells replaced. -/
def override (cells : List (String × Cell)) (t : Tuple γ) : Tuple γ :=
  fun c => (cells.lookup (Layout.name c)).getD (t c)

/-- The tuple whose key is the text. -/
def isNamed (id : String) (t : Tuple γ) : Bool :=
  keyOf t = .text id

/-- The cells of the tuples, column by column. -/
def cells (T : Table γ) : List (List Cell) :=
  T.tuples.map fun t => (Layout.columns : List γ).map t

end Table

namespace Database

/-- The statement, if the table has all the columns. -/
def ifColumns (γ : Type) [Layout γ] (cells : List (String × Cell)) (s : Statement) :
    Option Statement :=
  if Table.hasColumns γ cells then some s else none

/-- Appends a tuple to the named table. -/
def insertNamed? (table : String) (cells : List (String × Cell)) : Option Statement :=
  if table = Layout.table AlertColumn then
    ifColumns AlertColumn cells (insertAlert (Table.namedTuple cells))
  else if table = Layout.table SideColumn then
    ifColumns SideColumn cells (insertSide (Table.namedTuple cells))
  else if table = Layout.table ExpressionColumn then
    ifColumns ExpressionColumn cells (insertExpression (Table.namedTuple cells))
  else none

/-- Changes cells of the tuples in the named table whose key is a text. -/
def updateNamed? (table id : String) (cells : List (String × Cell)) : Option Statement :=
  if table = Layout.table AlertColumn then
    ifColumns AlertColumn cells (updateAlerts (Table.isNamed id) (Table.override cells))
  else if table = Layout.table SideColumn then
    ifColumns SideColumn cells (updateSides (Table.isNamed id) (Table.override cells))
  else if table = Layout.table ExpressionColumn then
    ifColumns ExpressionColumn cells (updateExpressions (Table.isNamed id) (Table.override cells))
  else none

/-- Removes the tuples in the named table whose key is a text. -/
def deleteNamed? (table id : String) : Option Statement :=
  if table = Layout.table AlertColumn then some (deleteAlerts (Table.isNamed id))
  else if table = Layout.table SideColumn then some (deleteSides (Table.isNamed id))
  else if table = Layout.table ExpressionColumn then some (deleteExpressions (Table.isNamed id))
  else none

/-- Rejects changes of a sort in the named table with a message, or no longer. This changes no
tuple. -/
def setRejectionNamed? (table : String) (change : Change) (message : Option String) :
    Option Statement :=
  let set (f : Database → Database) : Statement := fun db =>
    .ok { database := f db, count := 0 }
  if table = Layout.table AlertColumn then
    some (set fun db => { db with alerts := db.alerts.setRejection change message })
  else if table = Layout.table SideColumn then
    some (set fun db => { db with sides := db.sides.setRejection change message })
  else if table = Layout.table ExpressionColumn then
    some (set fun db => { db with expressions := db.expressions.setRejection change message })
  else none

end Database

end AlertRegistry
