import AlertRegistry.Expression.Record
import AlertRegistry.Proofs.Expression.Stored
import AlertRegistry.Proofs.Record
import AlertRegistry.Proofs.Uuid

/-!
# Expressions are lawful records

Nothing is kept beside an expression, so saving a row is the one statement on its table.
-/

namespace AlertRegistry

open ExpressionRow (ids)

instance : StoredRecord Expression ExpressionRow ExpressionColumn where
  stored := ExpressionRow.stored
  stamp := ExpressionRow.stamp
  Keeps := Database.KeepsExpressions
  Admits := Database.AdmitsExpressions

namespace ExpressionRow

variable {s : Store} {rows : List ExpressionRow}

/-- A row with a new identifier is inserted. -/
theorem save_new (hs : s.Alone) (hk : s.view.KeepsExpressions rows) (hp : s.view.AdmitsExpressions)
    (now : Int) {r : ExpressionRow} (hv : r.version = 0) (hr : r.id ∉ ids rows) :
    ∃ db', save Expression now r s = (.ok (), s.withView db') ∧ db'.AdmitsExpressions
      ∧ db'.KeepsExpressions (rows ++ [r.stamp 1 now now]) := by
  obtain ⟨db', hinsert, hp', hk'⟩ := hk.insert_eq_ok hp now hr
  refine ⟨db', ?_, hp', hk'⟩
  rw [save_of_insert hv (hs.execute_ok hinsert)]
  rfl

/-- A row in the stored version overwrites the row with its identifier. -/
theorem save_old (hs : s.Alone) (hk : s.view.KeepsExpressions rows) (hp : s.view.AdmitsExpressions)
    (now : Int) {r : ExpressionRow} (hpos : r.version ≠ 0) (hr : r.id ∈ ids rows)
    (hv : ∀ u ∈ rows, u.id = r.id → u.version = r.version) (hmax : r.version < Text.maxInt64) :
    ∃ db', save Expression now r s = (.ok (), s.withView db') ∧ db'.AdmitsExpressions
      ∧ db'.KeepsExpressions (Keyed.change ExpressionRow.id r.id (r.overwriting now) rows) := by
  obtain ⟨db', hreplace, hp', hk'⟩ := hk.replace_eq_ok hp now hr hv hmax
  refine ⟨db', ?_, hp', hk'⟩
  rw [save_of_replace hpos (hs.execute_ok hreplace)]
  rfl

/-- With nothing beside them, expressions are removed by one statement. -/
theorem clear_eq (hs : s.Alone) (hk : s.view.KeepsExpressions rows)
    (hp : s.view.AdmitsExpressions) :
    ∃ count db₁ db₂,
      Repository.executeIfAny (Record.clearBeside Expression) s = (.ok count, s.withView db₁)
      ∧ (s.withView db₁).execute (Record.clear Expression) = (.ok rows.length, s.withView db₂)
      ∧ db₂.AdmitsExpressions ∧ db₂.KeepsExpressions [] := by
  obtain ⟨db₂, hclear, hp₂, hk₂⟩ := hk.clear_eq_ok hp
  refine ⟨0, s.view, db₂, ?_, ?_, hp₂, hk₂⟩
  · rw [hs.withView_view]
    rfl
  · rw [hs.withView_view]
    exact hs.execute_ok hclear

end ExpressionRow

instance : LawfulRecord Expression ExpressionRow ExpressionColumn where
  keeps_empty := .empty rfl
  admits_empty _ := rfl
  key_toRow h := by
    cases h
    rfl
  key_stamp _ _ _ _ := rfl
  version_stamp _ _ _ _ := rfl
  stamps_stamp _ _ _ _ := rfl
  key_withVersion _ _ := rfl
  version_withVersion _ _ := rfl
  stamp_withVersion _ _ _ _ _ := rfl
  ofRow_stamp _ _ _ _ := rfl
  readable {x r} h := by
    cases h
    refine ⟨x, ?_, rfl⟩
    show (ExpressionRow.ofExpression x).toExpression = _
    unfold ExpressionRow.toExpression ExpressionRow.ofExpression
    rw [Uuid.ofString?_toString]
  keyOf_stored _ := rfl
  version_stored _ := rfl
  tuples h := h.tuples
  readRow _ r _ := ExpressionRow.ofTuple_stored r
  nodup h := h.nodup
  written h := h.written
  filter_eq _ h := by
    show ExpressionRow.filter _ _ = []
    unfold ExpressionRow.filter
    rw [h.needle, h.cluster, h.service]
    rfl
  save_new now _ hs hk hp := ExpressionRow.save_new hs hk hp now
  save_old now _ hs hk hp := ExpressionRow.save_old hs hk hp now
  clear_eq := ExpressionRow.clear_eq

end AlertRegistry
