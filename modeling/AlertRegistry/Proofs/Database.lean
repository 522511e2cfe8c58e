import AlertRegistry.Database.Basic
import AlertRegistry.Proofs.Table

/-!
# Statements

A statement changes a table, if the table lets it, and ends with the check that every side-record
still belongs to an alert (`Database.finish`). Each statement is opened here once, by what it does
to its table.
-/

namespace AlertRegistry

open Table (keys keyOf)

namespace Database

variable {db : Database}

/-! ## References -/

theorem isReferenced_iff :
    db.isReferenced = true ↔ keys db.sides.tuples ⊆ keys db.alerts.tuples := by
  unfold Database.isReferenced
  rw [List.all_eq_true, List.subset_def]
  unfold keys
  rw [List.forall_mem_map]
  simp only [Table.hasKey_iff]
  rfl

theorem finish_of_subset (h : keys db.sides.tuples ⊆ keys db.alerts.tuples) (count : Nat) :
    db.finish count = .ok { database := db, count } := by
  unfold finish
  rw [if_pos (isReferenced_iff.2 h)]

theorem database_of_finish {count : Nat} {e : Effect} (h : db.finish count = .ok e) :
    e.database = db := by
  unfold finish at h
  split at h
  · cases h
    rfl
  · cases h

theorem count_of_finish {count : Nat} {e : Effect} (h : db.finish count = .ok e) :
    e.count = count := by
  unfold finish at h
  split at h
  · cases h
    rfl
  · cases h

/-! ## Alerts -/

section

variable {T : Table AlertColumn}

/-- The database with other tuples in the table of alerts. -/
def withAlerts (db : Database) (ts : List (Tuple AlertColumn)) : Database :=
  { db with alerts := { db.alerts with tuples := ts } }

theorem insertAlert_of_ok {t : Tuple AlertColumn} (h : db.alerts.insert t = .ok T) :
    insertAlert t db = finish { db with alerts := T } 1 := by
  unfold insertAlert
  rw [h]
  rfl

theorem insertAlert_of_error {t : Tuple AlertColumn} {e : ChangeError}
    (h : db.alerts.insert t = .error e) : insertAlert t db = .error e := by
  unfold insertAlert
  rw [h]
  rfl

theorem updateAlerts_of_ok {p : Tuple AlertColumn → Bool}
    {g : Tuple AlertColumn → Tuple AlertColumn} {count : Nat}
    (h : db.alerts.update p g = .ok T ∧ db.alerts.count p = count) :
    updateAlerts p g db = finish { db with alerts := T } count := by
  unfold updateAlerts
  rw [h.1, h.2]
  rfl

end

/-! ## Side-records -/

section

variable {T : Table SideColumn}

/-- The database with other tuples in the table of side-records. -/
def withSides (db : Database) (ts : List (Tuple SideColumn)) : Database :=
  { db with sides := { db.sides with tuples := ts } }

theorem putSide_of_ok {t : Tuple SideColumn} (h : db.sides.put t = .ok T) :
    putSide t db = finish { db with sides := T } 1 := by
  unfold putSide
  rw [h]
  rfl

theorem deleteSides_of_ok {p : Tuple SideColumn → Bool} (h : db.sides.delete p = .ok T) :
    deleteSides p db = finish { db with sides := T } (db.sides.count p) := by
  unfold deleteSides
  rw [h]
  rfl

end

/-! ## Expressions -/

section

variable {T : Table ExpressionColumn}

/-- The database with other tuples in the table of expressions. -/
def withExpressions (db : Database) (ts : List (Tuple ExpressionColumn)) : Database :=
  { db with expressions := { db.expressions with tuples := ts } }

theorem insertExpression_of_ok {t : Tuple ExpressionColumn} (h : db.expressions.insert t = .ok T) :
    insertExpression t db = .ok { database := { db with expressions := T }, count := 1 } := by
  unfold insertExpression
  rw [h]
  rfl

theorem insertExpression_of_error {t : Tuple ExpressionColumn} {e : ChangeError}
    (h : db.expressions.insert t = .error e) : insertExpression t db = .error e := by
  unfold insertExpression
  rw [h]
  rfl

theorem updateExpressions_of_ok {p : Tuple ExpressionColumn → Bool}
    {g : Tuple ExpressionColumn → Tuple ExpressionColumn} {count : Nat}
    (h : db.expressions.update p g = .ok T ∧ db.expressions.count p = count) :
    updateExpressions p g db = .ok { database := { db with expressions := T }, count } := by
  unfold updateExpressions
  rw [h.1, h.2]
  rfl

end

end Database

end AlertRegistry
