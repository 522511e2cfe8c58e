import AlertRegistry.Database.Layout

/-!
# The database

A `Database` holds the three tables. A `Statement` changes it as a whole or fails; its `Effect` also
tells how many tuples it changed. Every side-record refers to an alert: a statement that would leave
one behind fails, and removing an alert removes its side-record.
-/

namespace AlertRegistry

/-- The three tables. -/
structure Database where
  /-- The alerts. -/
  alerts : Table AlertColumn := {}
  /-- The side-records. -/
  sides : Table SideColumn := {}
  /-- The expressions. -/
  expressions : Table ExpressionColumn := {}

/-- What a statement did. -/
structure Effect where
  /-- The database after it. -/
  database : Database
  /-- The number of tuples that it changed. -/
  count : Nat

/-- A change of the database, or the reason why there is none. -/
abbrev Statement := Database → Except ChangeError Effect

namespace Database

/-- Every side-record belongs to an alert. -/
def isReferenced (db : Database) : Bool :=
  db.sides.tuples.all fun s => Table.hasKey (Table.keyOf s) db.alerts.tuples

/-- The effect of changing so many tuples, if every side-record still belongs to an alert. -/
def finish (db : Database) (count : Nat) : Except ChangeError Effect :=
  if db.isReferenced then .ok { database := db, count } else .error .reference

/-! ## Alerts -/

/-- Appends an alert. -/
def insertAlert (t : Tuple AlertColumn) : Statement := fun db => do
  finish { db with alerts := ← db.alerts.insert t } 1

/-- Changes the selected alerts. -/
def updateAlerts (select : Tuple AlertColumn → Bool)
    (f : Tuple AlertColumn → Tuple AlertColumn) : Statement := fun db => do
  finish { db with alerts := ← db.alerts.update select f } (db.alerts.count select)

/-- Removes the selected alerts with their side-records. -/
def deleteAlerts (select : Tuple AlertColumn → Bool) : Statement := fun db => do
  let alerts ← db.alerts.delete select
  let gone (s : Tuple SideColumn) : Bool :=
    Table.hasKey (Table.keyOf s) (db.alerts.tuples.filter select)
  finish { db with alerts, sides := ← db.sides.delete gone } (db.alerts.count select)

/-! ## Side-records -/

/-- Appends a side-record. -/
def insertSide (t : Tuple SideColumn) : Statement := fun db => do
  finish { db with sides := ← db.sides.insert t } 1

/-- Puts a side-record in the place of the one with its key, or else appends it. -/
def putSide (t : Tuple SideColumn) : Statement := fun db => do
  finish { db with sides := ← db.sides.put t } 1

/-- Changes the selected side-records. -/
def updateSides (select : Tuple SideColumn → Bool)
    (f : Tuple SideColumn → Tuple SideColumn) : Statement := fun db => do
  finish { db with sides := ← db.sides.update select f } (db.sides.count select)

/-- Removes the selected side-records. -/
def deleteSides (select : Tuple SideColumn → Bool) : Statement := fun db => do
  finish { db with sides := ← db.sides.delete select } (db.sides.count select)

/-! ## Expressions -/

/-- Appends an expression. -/
def insertExpression (t : Tuple ExpressionColumn) : Statement := fun db => do
  return { database := { db with expressions := ← db.expressions.insert t }, count := 1 }

/-- Changes the selected expressions. -/
def updateExpressions (select : Tuple ExpressionColumn → Bool)
    (f : Tuple ExpressionColumn → Tuple ExpressionColumn) : Statement := fun db => do
  return {
    database := { db with expressions := ← db.expressions.update select f }
    count := db.expressions.count select }

/-- Removes the selected expressions. -/
def deleteExpressions (select : Tuple ExpressionColumn → Bool) : Statement := fun db => do
  return {
    database := { db with expressions := ← db.expressions.delete select }
    count := db.expressions.count select }

end Database

end AlertRegistry
