import AlertRegistry.Alert.Record
import AlertRegistry.Expression.Record
import AlertRegistry.Proofs.Alert.Stored
import AlertRegistry.Proofs.Expression.Stored
import AlertRegistry.Proofs.Record
import AlertRegistry.Proofs.Versioned

/-!
# Saving under a version

On a database that meets the conditions of its tables (`Database.Conforms`), whatever is in the
cells, a save is decided by the version alone: `Saving.run_of_fits` and `Saving.run_of_not_fits` say
what it answers and which database it leaves. A row that fits is written with what is beside it
(`Saving.apply`); any other row is refused with an error (`Saving.refusal`) that leaves all three
tables as they were.
-/

namespace AlertRegistry

open Table (keys keyOf)

/-! ## The tables with versions -/

instance : Versioned AlertColumn where
  version := .version
  createdAt := .createdAt
  isStamp_createdAt h := Table.isStamp_of_accept h (by decide) rfl rfl
  one_le_version h := Table.one_le_of_accept h List.mem_cons_self

instance : Versioned ExpressionColumn where
  version := .version
  createdAt := .createdAt
  isStamp_createdAt h := Table.isStamp_of_accept h (by decide) rfl rfl
  one_le_version h := Table.one_le_of_accept h List.mem_cons_self

/-- What the writer of an alert's row carries. -/
def AlertRow.sheet (r : AlertRow) : Sheet AlertColumn where
  key := r.id
  version := r.version
  tuple := r.tuple
  keyOf_tuple _ _ _ := rfl
  version_tuple _ _ _ := rfl
  accept_tuple := r.accept_tuple
  isNaN_tuple hv hc hu column := by
    cases column with
    | version => exact hv
    | createdAt => exact hc
    | updatedAt => exact hu
    | _ => rfl

/-- What the writer of an expression's row carries. -/
def ExpressionRow.sheet (r : ExpressionRow) : Sheet ExpressionColumn where
  key := r.id
  version := r.version
  tuple := r.tuple
  keyOf_tuple _ _ _ := rfl
  version_tuple _ _ _ := rfl
  accept_tuple := r.accept_tuple
  isNaN_tuple hv hc hu column := by
    cases column with
    | version => exact hv
    | createdAt => exact hc
    | updatedAt => exact hu
    | _ => rfl

/-! ## The database -/

theorem AlertRow.isNaN_sideTuple (id : String) (side : SideRecord) (column : SideColumn) :
    (side.tuple id column).isNaN = false := by
  obtain ⟨severity, recipient, attempts, freshness⟩ := side
  cases column with
  | alertId => rfl
  | severity => cases severity <;> rfl
  | recipient => cases recipient <;> rfl
  | attempts => cases attempts <;> rfl
  | freshness => cases freshness <;> rfl

/-- The database meets the conditions of its tables: each table does, and every side-record belongs
to an alert. -/
structure Database.Conforms (db : Database) : Prop where
  /-- The alerts. -/
  alerts : db.alerts.Conforms
  /-- The side-records. -/
  sides : db.sides.Conforms
  /-- The expressions. -/
  expressions : db.expressions.Conforms
  /-- Side-records refer to alerts. -/
  referenced : keys db.sides.tuples ⊆ keys db.alerts.tuples

namespace Database.Conforms

variable {db : Database}

/-- The database before anything is written. -/
theorem empty : ({} : Database).Conforms := by
  have hempty : ∀ (γ : Type) [Layout γ], ({} : Table γ).Conforms := by
    intro γ _
    exact ⟨fun _ => rfl, nofun, nofun, .nil⟩
  exact ⟨hempty _, hempty _, hempty _, List.nil_subset _⟩

theorem finish (h : db.Conforms) (count : Nat) :
    db.finish count = .ok { database := db, count } :=
  finish_of_subset h.referenced count

/-- The database with the row of an alert written, but not what is beside it. -/
theorem writeAlert (h : db.Conforms) {w : Sheet AlertColumn} (hfits : db.alerts.Fits w)
    (now : Int) :
    Conforms { db with alerts := db.alerts.write now w } where
  alerts := h.alerts.write hfits now
  sides := h.sides
  expressions := h.expressions
  referenced := List.Subset.trans h.referenced (Table.keys_subset_keys_write ..)

theorem writeExpression (h : db.Conforms) {w : Sheet ExpressionColumn}
    (hfits : db.expressions.Fits w) (now : Int) :
    Conforms { db with expressions := db.expressions.write now w } where
  alerts := h.alerts
  sides := h.sides
  expressions := h.expressions.write hfits now
  referenced := h.referenced

/-- What is beside a row is in order if the row is. -/
theorem withBesides (h : db.Conforms) {r : AlertRow} (hr : Cell.text r.id ∈ keys db.alerts.tuples) :
    Conforms (db.withSides (r.besides db.sides.tuples)) where
  alerts := h.alerts
  sides := {
    permissive := h.sides.permissive
    accepted := r.forall_mem_besides h.sides.accepted (SideRecord.accept_tuple r.id)
    isNaN := r.forall_mem_besides h.sides.isNaN (AlertRow.isNaN_sideTuple r.id)
    nodup := r.nodup_keys_besides h.sides.nodup }
  expressions := h.expressions
  referenced := by
    intro key hkey
    rcases r.mem_keys_besides hkey with rfl | hkey
    · exact hr
    · exact h.referenced hkey

end Database.Conforms

/-! ## Saves -/

/-- A save of a row at a time. -/
inductive Saving where
  /-- The row is an alert's. -/
  | alert (now : Int) (row : AlertRow)
  /-- The row is an expression's. -/
  | expression (now : Int) (row : ExpressionRow)

/-- The version that is stored under a key. -/
def Database.versionAt (db : Database) (entity : Entity) (key : String) : Option Cell :=
  match entity with
  | .alert => db.alerts.versionAt key
  | .expression => db.expressions.versionAt key

namespace Saving

/-- The save is done by a connection. -/
def run (q : Saving) (s : Store) : RepositoryStep Unit :=
  match q with
  | alert now r => save Alert now r s
  | expression now r => save Expression now r s

/-- The kind of the row. -/
def entity : Saving → Entity
  | alert .. => .alert
  | expression .. => .expression

/-- The key of the row. -/
def key : Saving → String
  | alert _ r => r.id
  | expression _ r => r.id

/-- The version that the row carries. -/
def version : Saving → Int
  | alert _ r => r.version
  | expression _ r => r.version

/-- The version that the row carries is the stored one, or 0 if none is stored. -/
def Fits (q : Saving) (db : Database) : Prop :=
  db.versionAt q.entity q.key = if q.version = 0 then none else some (.integer q.version)

instance (q : Saving) (db : Database) : Decidable (q.Fits db) :=
  inferInstanceAs (Decidable (_ = _))

/-- The database after the row is written, and what is beside it. -/
def apply (q : Saving) (db : Database) : Database :=
  match q with
  | alert now r =>
    { db with alerts := db.alerts.write now r.sheet }.withSides (r.besides db.sides.tuples)
  | expression now r => { db with expressions := db.expressions.write now r.sheet }

/-- The error that the key of the row is taken. -/
def duplicate : Saving → ChangeError
  | alert .. => Table.duplicateKey AlertColumn
  | expression .. => Table.duplicateKey ExpressionColumn

/-- The error that a row does not fit: in version 0 its key is taken; in any other version the
conflict names that version, unless the key is no identifier. -/
def refusal (q : Saving) : RepositoryError :=
  if q.version = 0 then .access (.store (.change q.duplicate))
  else
    match Uuid.ofString? q.key with
    | some id => .conflict id (.version q.version)
    | none => .row (.id q.entity.table q.key)

variable {s : Store} {db : Database} {q : Saving}

theorem refusal_new (hv : q.version = 0) : q.refusal = .access (.store (.change q.duplicate)) :=
  if_pos hv

theorem refusal_old {α ρ γ : Type} [Record α ρ γ] {r : ρ} (hv : q.version ≠ 0)
    (hr : Record.entity α = q.entity ∧ Record.key α r = q.key ∧ Record.version α r = q.version) :
    q.refusal = versionError α r := by
  obtain ⟨hentity, hkey, hversion⟩ := hr
  unfold refusal versionError
  rw [if_neg hv, hentity, hkey, hversion]
  cases Uuid.ofString? q.key <;> rfl

/-- A database still conforms after a row that fits is written. -/
theorem apply_conforms (h : db.Conforms) (hfits : q.Fits db) : (q.apply db).Conforms := by
  cases q with
  | alert now r =>
    have hfits : db.alerts.Fits r.sheet := hfits
    exact (h.writeAlert hfits now).withBesides (Table.key_mem_keys_write h.alerts hfits now)
  | expression now r =>
    have hfits : db.expressions.Fits r.sheet := hfits
    exact h.writeExpression hfits now

/-! ## Alerts -/

section

variable {r : AlertRow}

/-- The first statement of a save writes the row of an alert that fits. -/
theorem save_alert_of_fits (hs : s.Alone) (h : s.view.Conforms) (hfits : s.view.alerts.Fits r.sheet)
    (hmax : r.version < Text.maxInt64) (now : Int) :
    save Alert now r s = saveBeside Alert r
      (s.withView { s.view with alerts := s.view.alerts.write now r.sheet }) := by
  have hfinish := (h.writeAlert hfits now).finish 1
  by_cases hv : r.version = 0
  · have hinsert := Table.insert_of_fits h.alerts hv hfits now
    exact save_of_insert hv (hs.execute_ok ((Database.insertAlert_of_ok hinsert).trans hfinish))
  · have hupdate := Table.update_of_fits h.alerts hv hfits hmax now
    exact save_of_replace hv (hs.execute_ok ((Database.updateAlerts_of_ok hupdate).trans hfinish))

/-- The second statement writes what is beside it. -/
theorem saveBeside_alert (hs : s.Alone) (h : s.view.Conforms)
    (hr : Cell.text r.id ∈ keys s.view.alerts.tuples) :
    saveBeside Alert r s
      = (.ok (), s.withView (s.view.withSides (r.besides s.view.sides.tuples))) := by
  obtain ⟨count, hwrite⟩ := r.writeSide_eq h.sides.permissive h.sides.nodup
  have hstatement := hwrite.trans ((h.withBesides hr).finish count)
  exact saveBeside_of_write rfl (hs.execute_ok hstatement)

theorem save_alert_of_not_fits (hs : s.Alone) (h : s.view.Conforms)
    (hfits : ¬ s.view.alerts.Fits r.sheet) (now : Int) :
    save Alert now r s = (.error (alert now r).refusal, s) := by
  by_cases hv : r.version = 0
  · have hinsert := Table.insert_of_not_fits h.alerts hv hfits now
    rw [refusal_new (q := alert now r) hv]
    exact save_of_insert_error hv (hs.execute_error (Database.insertAlert_of_error hinsert))
  · have hupdate := Table.update_of_not_fits h.alerts hv hfits fun t => r.tuple (.next r.version)
      (t .createdAt) (Cell.later (t .createdAt) (.integer now))
    have hstale := hs.execute_ok ((Database.updateAlerts_of_ok hupdate).trans (h.finish 0))
    rw [hs.withView_view] at hstale
    rw [refusal_old (q := alert now r) (α := Alert) (r := r) hv ⟨rfl, rfl, rfl⟩]
    exact save_of_replace_none hv hstale

end

/-! ## Expressions -/

section

variable {r : ExpressionRow}

theorem save_expression_of_fits (hs : s.Alone) (h : s.view.Conforms)
    (hfits : s.view.expressions.Fits r.sheet) (hmax : r.version < Text.maxInt64) (now : Int) :
    save Expression now r s
      = (.ok (),
        s.withView { s.view with expressions := s.view.expressions.write now r.sheet }) := by
  by_cases hv : r.version = 0
  · have hinsert := Table.insert_of_fits h.expressions hv hfits now
    exact save_of_insert hv (hs.execute_ok (Database.insertExpression_of_ok hinsert))
  · have hupdate := Table.update_of_fits h.expressions hv hfits hmax now
    exact save_of_replace hv (hs.execute_ok (Database.updateExpressions_of_ok hupdate))

theorem save_expression_of_not_fits (hs : s.Alone) (h : s.view.Conforms)
    (hfits : ¬ s.view.expressions.Fits r.sheet) (now : Int) :
    save Expression now r s = (.error (expression now r).refusal, s) := by
  by_cases hv : r.version = 0
  · have hinsert := Table.insert_of_not_fits h.expressions hv hfits now
    rw [refusal_new (q := expression now r) hv]
    exact save_of_insert_error hv (hs.execute_error (Database.insertExpression_of_error hinsert))
  · have hupdate := Table.update_of_not_fits h.expressions hv hfits fun t =>
      r.tuple (.next r.version) (t .createdAt) (Cell.later (t .createdAt) (.integer now))
    have hstale := hs.execute_ok (Database.updateExpressions_of_ok hupdate)
    rw [hs.withView_view] at hstale
    rw [refusal_old (q := expression now r) (α := Expression) (r := r) hv ⟨rfl, rfl, rfl⟩]
    exact save_of_replace_none hv hstale

end

/-! ## Either kind -/

/-- A row that fits is written, with what is beside it. -/
theorem run_of_fits (hs : s.Alone) (h : s.view.Conforms) (hfits : q.Fits s.view)
    (hmax : q.version < Text.maxInt64) : q.run s = (.ok (), s.withView (q.apply s.view)) := by
  cases q with
  | alert now r =>
    have hfits : s.view.alerts.Fits r.sheet := hfits
    let db₁ : Database := { s.view with alerts := s.view.alerts.write now r.sheet }
    -- the second statement finds the row that the first one has written
    have hview : (s.withView db₁).view = db₁ := hs.view_withView db₁
    have hbeside := saveBeside_alert (r := r) (hs.withView db₁)
      (by
        rw [hview]
        exact h.writeAlert hfits now)
      (by
        rw [hview]
        exact Table.key_mem_keys_write h.alerts hfits now)
    rw [hview, hs.withView_withView] at hbeside
    exact (save_alert_of_fits hs h hfits hmax now).trans hbeside
  | expression now r => exact save_expression_of_fits hs h hfits hmax now

/-- Any other row is refused, and changes nothing. -/
theorem run_of_not_fits (hs : s.Alone) (h : s.view.Conforms) (hfits : ¬ q.Fits s.view) :
    q.run s = (.error q.refusal, s) := by
  cases q with
  | alert now r => exact save_alert_of_not_fits hs h hfits now
  | expression now r => exact save_expression_of_not_fits hs h hfits now

end Saving

end AlertRegistry
