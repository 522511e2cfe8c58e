import AlertRegistry.Expression.Tuple
import AlertRegistry.Proofs.Database
import AlertRegistry.Proofs.Keyed

/-!
# Expressions in the database

`Database.KeepsExpressions` says that a database keeps a list of rows as its expressions. As nothing
is kept beside expressions, one statement is all that it takes to write a row:

* `insert_eq_ok` appends it;
* `replace_eq_ok` overwrites the row in the same version;
* `clear_eq_ok` leaves nothing.
-/

namespace AlertRegistry

open Table (keys keyOf Permissive)

namespace ExpressionRow

/-- The row with another version and other stamps. -/
def stamp (r : ExpressionRow) (version createdAt updatedAt : Int) : ExpressionRow :=
  { r with version, createdAt, updatedAt }

/-- The tuple in which a row is kept. -/
def stored (r : ExpressionRow) : Tuple ExpressionColumn :=
  r.tuple (.integer r.version) (.integer r.createdAt) (.integer r.updatedAt)

theorem keyOf_stored (r : ExpressionRow) : keyOf r.stored = .text r.id := rfl

/-- The row `u` as `r` overwrites it at the time `now`. -/
def overwriting (r : ExpressionRow) (now : Int) (u : ExpressionRow) : ExpressionRow :=
  r.stamp (r.version + 1) u.createdAt (max u.createdAt now)

/-- A tuple is replaced if it has both the identifier and the version of the row. -/
theorem selects_stored (r u : ExpressionRow) :
    (u.stored .id = .text r.id && u.stored .version = .integer r.version : Bool) = true
      ↔ u.id = r.id ∧ u.version = r.version := by
  show (decide (Cell.text u.id = .text r.id)
      && decide (Cell.integer u.version = .integer r.version)) = true ↔ _
  simp only [Bool.and_eq_true, decide_eq_true_eq, Cell.text.injEq, Cell.integer.injEq]

/-- What replaces a tuple is the tuple of the overwritten row, as long as versions can grow. -/
theorem tuple_overwriting {r : ExpressionRow} (hmax : r.version < Text.maxInt64) (now : Int)
    (u : ExpressionRow) :
    r.tuple (.next r.version) (u.stored .createdAt)
      (Cell.later (u.stored .createdAt) (.integer now)) = (r.overwriting now u).stored := by
  show r.tuple (.next r.version) (.integer u.createdAt)
    (Cell.later (.integer u.createdAt) (.integer now)) = _
  rw [Cell.next_eq hmax, Cell.later_integer]
  rfl

/-- The tuple of a row is admitted with a version of at least 1 and stamps in order. -/
theorem accept_tuple (r : ExpressionRow) {v c u : Cell} (hv : v.IsStamp) (hc : c.IsStamp)
    (hu : u.IsStamp) (hversion : v.permitsGe (.integer 1) = true) (hstamps : u.permitsGe c = true) :
    Table.accept (r.tuple v c u) = .ok (r.tuple v c u) := by
  apply Table.accept_eq_ok
  · funext column
    cases column with
    | version => exact hv.kept
    | createdAt => exact hc.kept
    | updatedAt => exact hu.kept
    | _ => rfl
  · intro column _
    cases column with
    | version => exact hv.notNull
    | createdAt => exact hc.notNull
    | updatedAt => exact hu.notNull
    | _ => exact Cell.noConfusion
  · intro k hk
    rcases List.mem_pair.1 hk with rfl | rfl
    · exact hversion
    · exact hstamps

/-- The tuple of a row that was written at least once, the last time not before the first, is
admitted. -/
theorem accept_stored {r : ExpressionRow} (hv : 1 ≤ r.version) (hs : r.createdAt ≤ r.updatedAt) :
    Table.accept r.stored = .ok r.stored :=
  r.accept_tuple (Cell.isStamp_integer _) (Cell.isStamp_integer _) (Cell.isStamp_integer _)
    (Cell.permitsGe_integer hv) (Cell.permitsGe_integer hs)

/-- A row is read back from its tuple. -/
theorem ofTuple_stored (r : ExpressionRow) : ofTuple r.stored = .ok r := rfl

/-- The identifiers of rows. -/
def ids (rows : List ExpressionRow) : List String :=
  rows.map ExpressionRow.id

end ExpressionRow

/-- The database keeps the rows: they are its expressions, in that order. -/
structure Database.KeepsExpressions (db : Database) (rows : List ExpressionRow) : Prop where
  /-- The expressions are the tuples of the rows. -/
  tuples : db.expressions.tuples = rows.map ExpressionRow.stored
  /-- No two rows have one identifier. -/
  nodup : (ExpressionRow.ids rows).Nodup
  /-- Rows were written at least once. -/
  written : ∀ r ∈ rows, 1 ≤ r.version
  /-- Stamps are in order. -/
  stamps : ∀ r ∈ rows, r.createdAt ≤ r.updatedAt

/-- The table of expressions rejects nothing. -/
def Database.AdmitsExpressions (db : Database) : Prop :=
  db.expressions.Permissive

theorem Database.AdmitsExpressions.congr {db db' : Database} (h : db.AdmitsExpressions)
    (he : db'.expressions = db.expressions) : db'.AdmitsExpressions := by
  unfold AdmitsExpressions
  rw [he]
  exact h

theorem Database.AdmitsExpressions.withExpressions {db : Database} (h : db.AdmitsExpressions)
    (ts : List (Tuple ExpressionColumn)) : (db.withExpressions ts).AdmitsExpressions :=
  h

namespace Database.KeepsExpressions

open ExpressionRow (ids stored)

variable {db : Database} {rows : List ExpressionRow}

theorem empty {db : Database} (h : db.expressions.tuples = []) : db.KeepsExpressions [] where
  tuples := h
  nodup := .nil
  written := by simp
  stamps := by simp

/-- Other tables do not matter. -/
theorem congr (h : db.KeepsExpressions rows) {db' : Database}
    (he : db'.expressions = db.expressions) : db'.KeepsExpressions rows where
  tuples := he ▸ h.tuples
  nodup := h.nodup
  written := h.written
  stamps := h.stamps

theorem text_mem_keys_iff (h : db.KeepsExpressions rows) {id : String} :
    Cell.text id ∈ keys db.expressions.tuples ↔ id ∈ ids rows := by
  rw [h.tuples]
  exact Table.text_mem_keys_stored ExpressionRow.keyOf_stored

/-- A row with a new identifier goes to the end. -/
theorem insert_eq_ok (h : db.KeepsExpressions rows) (hp : db.AdmitsExpressions) (now : Int)
    {r : ExpressionRow} (hr : r.id ∉ ids rows) :
    ∃ db', ExpressionRow.insert now r db = .ok { database := db', count := 1 }
      ∧ db'.AdmitsExpressions ∧ db'.KeepsExpressions (rows ++ [r.stamp 1 now now]) := by
  let r' := r.stamp 1 now now
  have haccept : Table.accept r'.stored = .ok r'.stored :=
    ExpressionRow.accept_stored (Int.le_refl 1) (Int.le_refl now)
  have hfresh : keyOf r'.stored ∉ keys db.expressions.tuples := fun hmem =>
    hr (h.text_mem_keys_iff.1 hmem)
  refine ⟨db.withExpressions (db.expressions.tuples ++ [r'.stored]), ?_, hp.withExpressions _, {
    tuples := ?_
    nodup := ?_
    written := ?_
    stamps := ?_ }⟩
  · exact insertExpression_of_ok (Table.insert_eq_ok hp haccept hfresh)
  · show db.expressions.tuples ++ [r'.stored] = _
    rw [h.tuples, List.map_append]
    rfl
  · unfold ids
    rw [List.map_append, List.map_singleton]
    exact h.nodup.append (List.nodup_singleton _) (by simpa [ExpressionRow.stamp] using hr)
  · exact List.forall_mem_append.2 ⟨h.written, by simp [ExpressionRow.stamp]⟩
  · exact List.forall_mem_append.2 ⟨h.stamps, by simp [ExpressionRow.stamp]⟩

/-- A row whose version is the stored one overwrites the row with its identifier, whose version
grows by one; the second stamp does not go back. -/
theorem replace_eq_ok (h : db.KeepsExpressions rows) (hp : db.AdmitsExpressions) (now : Int)
    {r : ExpressionRow} (hr : r.id ∈ ids rows)
    (hv : ∀ u ∈ rows, u.id = r.id → u.version = r.version) (hmax : r.version < Text.maxInt64) :
    ∃ db', ExpressionRow.replace now r db = .ok { database := db', count := 1 }
      ∧ db'.AdmitsExpressions
      ∧ db'.KeepsExpressions (Keyed.change ExpressionRow.id r.id (r.overwriting now) rows) := by
  let select (t : Tuple ExpressionColumn) : Bool :=
    t .id = .text r.id && t .version = .integer r.version
  let overwrite (t : Tuple ExpressionColumn) : Tuple ExpressionColumn :=
    r.tuple (.next r.version) (t .createdAt) (Cell.later (t .createdAt) (.integer now))
  -- the version is the stored one, so it is only by its identifier that a row is selected
  have hselect : ∀ u ∈ rows, (select u.stored = true ↔ u.id = r.id) := by
    intro u hu
    rw [ExpressionRow.selects_stored]
    exact ⟨And.left, fun hid => ⟨hid, hv u hu hid⟩⟩
  have hversion : ∀ u ∈ rows, u.id = r.id → 1 ≤ r.version + 1 := by
    intro u hu hid
    have := h.written u hu
    have := hv u hu hid
    omega
  have hupdate := Table.update_rows (p := select) (g := overwrite)
    (f := r.overwriting now) hp h.tuples ExpressionRow.keyOf_stored h.nodup hr hselect
    (fun u _ _ => ExpressionRow.tuple_overwriting hmax now u)
    (fun u hu hid => ExpressionRow.accept_stored (hversion u hu hid) (Int.le_max_left _ _))
    fun _ _ => rfl
  refine ⟨_, ?_, hp.withExpressions _, {
    tuples := rfl
    nodup := ?_
    written := Keyed.forall_mem_change hversion fun u hu _ => h.written u hu
    stamps := Keyed.forall_mem_change (fun _ _ _ => Int.le_max_left _ _) fun u hu _ =>
      h.stamps u hu }⟩
  · exact updateExpressions_of_ok hupdate
  · have hids : ids (Keyed.change ExpressionRow.id r.id (r.overwriting now) rows) = ids rows :=
      Keyed.map_key_change fun _ _ => rfl
    rw [hids]
    exact h.nodup

/-- All expressions are removed. -/
theorem clear_eq_ok (h : db.KeepsExpressions rows) (hp : db.AdmitsExpressions) :
    ∃ db', Database.deleteExpressions (fun _ => true) db
        = .ok { database := db', count := rows.length }
      ∧ db'.AdmitsExpressions ∧ db'.KeepsExpressions [] := by
  have hcount : db.expressions.count (fun _ => true) = rows.length := by
    unfold Table.count
    rw [List.countP_true, h.tuples, List.length_map]
  refine ⟨db.withExpressions [], ?_, hp.withExpressions _, .empty rfl⟩
  unfold Database.deleteExpressions
  rw [Table.delete_eq_ok hp, hcount]
  simp only [Bool.not_true, List.filter_false]
  rfl

end Database.KeepsExpressions

end AlertRegistry
