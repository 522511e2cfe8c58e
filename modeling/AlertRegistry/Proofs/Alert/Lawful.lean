import AlertRegistry.Alert.Record
import AlertRegistry.Proofs.Alert.Row
import AlertRegistry.Proofs.Alert.Stored
import AlertRegistry.Proofs.Record

/-!
# Alerts are lawful records

Saving a row is two statements: the row itself, and then its side-record. Together they put the row,
with its new version and stamps, in the place of the one with its identifier, or at the end.
-/

namespace AlertRegistry

open AlertRow (ids)

instance : StoredRecord Alert AlertRow AlertColumn where
  stored := AlertRow.stored
  stamp := AlertRow.stamp
  Keeps := Database.KeepsAlerts
  Admits := Database.AdmitsAlerts

namespace AlertRow

variable {s : Store} {rows : List AlertRow}

/-- What is beside a row is written after it. -/
theorem saveBeside_eq (hs : s.Alone) (hk : s.view.KeepsAlerts rows) (hp : s.view.AdmitsAlerts)
    {r : AlertRow} (hr : r.id ∈ ids rows) :
    ∃ db', saveBeside Alert r s = (.ok (), s.withView db') ∧ db'.AdmitsAlerts
      ∧ db'.KeepsAlerts (Keyed.change AlertRow.id r.id (·.withSide r.side) rows) := by
  obtain ⟨db', count, hwrite, hp', hk'⟩ := hk.writeSide_eq_ok hp hr
  exact ⟨db', saveBeside_of_write rfl (hs.execute_ok hwrite), hp', hk'⟩

/-- A row with a new identifier is inserted with what is beside it. -/
theorem save_new (hs : s.Alone) (hk : s.view.KeepsAlerts rows) (hp : s.view.AdmitsAlerts)
    (now : Int) {r : AlertRow} (hv : r.version = 0) (hr : r.id ∉ ids rows) :
    ∃ db', save Alert now r s = (.ok (), s.withView db') ∧ db'.AdmitsAlerts
      ∧ db'.KeepsAlerts (rows ++ [r.stamp 1 now now]) := by
  -- the first statement inserts the bare row, the second one finds it at the end
  obtain ⟨db₁, hinsert, hp₁, hk₁⟩ := hk.insert_eq_ok hp now hr
  have hs₁ := hs.withView db₁
  rw [← hs.view_withView db₁] at hp₁ hk₁
  have hmem : r.id ∈ ids (rows ++ [(r.stamp 1 now now).withSide none]) := by
    unfold ids
    rw [List.map_append]
    exact List.mem_append_right _ (List.mem_singleton_self _)
  obtain ⟨db₂, hbeside, hp₂, hk₂⟩ := saveBeside_eq hs₁ hk₁ hp₁ hmem
  refine ⟨db₂, ?_, hp₂, ?_⟩
  · rw [save_of_insert hv (hs.execute_ok hinsert), hbeside, hs.withView_withView]
  · have hrows : Keyed.change AlertRow.id r.id (·.withSide r.side)
        (rows ++ [(r.stamp 1 now now).withSide none]) = rows ++ [r.stamp 1 now now] := by
      unfold Keyed.change
      rw [List.map_append, List.map_singleton]
      have hold : rows.map (fun u => if u.id = r.id then u.withSide r.side else u) = rows :=
        Keyed.change_eq_self hr
      rw [hold]
      congr 2
      exact if_pos rfl
    rwa [hrows] at hk₂

/-- A row in the stored version overwrites the row with its identifier, and what is beside it. -/
theorem save_old (hs : s.Alone) (hk : s.view.KeepsAlerts rows) (hp : s.view.AdmitsAlerts)
    (now : Int) {r : AlertRow} (hpos : r.version ≠ 0) (hr : r.id ∈ ids rows)
    (hv : ∀ u ∈ rows, u.id = r.id → u.version = r.version) (hmax : r.version < Text.maxInt64) :
    ∃ db', save Alert now r s = (.ok (), s.withView db') ∧ db'.AdmitsAlerts
      ∧ db'.KeepsAlerts (Keyed.change AlertRow.id r.id
        (fun u => r.stamp (r.version + 1) u.createdAt (max u.createdAt now)) rows) := by
  -- the first statement leaves the old side-record, which the second one overwrites
  obtain ⟨db₁, hreplace, hp₁, hk₁⟩ := hk.replace_eq_ok hp now hr hv hmax
  have hs₁ := hs.withView db₁
  rw [← hs.view_withView db₁] at hp₁ hk₁
  have hids : ids (Keyed.change AlertRow.id r.id (r.overwriting now) rows) = ids rows :=
    Keyed.map_key_change fun _ _ => rfl
  obtain ⟨db₂, hbeside, hp₂, hk₂⟩ := saveBeside_eq hs₁ hk₁ hp₁ (hids.symm ▸ hr)
  refine ⟨db₂, ?_, hp₂, ?_⟩
  · rw [save_of_replace hpos (hs.execute_ok hreplace), hbeside, hs.withView_withView]
  · have hrows : Keyed.change AlertRow.id r.id (·.withSide r.side)
        (Keyed.change AlertRow.id r.id (r.overwriting now) rows)
        = Keyed.change AlertRow.id r.id
          (fun u => r.stamp (r.version + 1) u.createdAt (max u.createdAt now)) rows :=
      Keyed.change_change fun _ _ => rfl
    rwa [hrows] at hk₂

/-- Side-records and then alerts are removed. -/
theorem clear_eq (hs : s.Alone) (hk : s.view.KeepsAlerts rows) (hp : s.view.AdmitsAlerts) :
    ∃ count db₁ db₂,
      Repository.executeIfAny (Record.clearBeside Alert) s = (.ok count, s.withView db₁)
      ∧ (s.withView db₁).execute (Record.clear Alert) = (.ok rows.length, s.withView db₂)
      ∧ db₂.AdmitsAlerts ∧ db₂.KeepsAlerts [] := by
  obtain ⟨db₁, count, db₂, hsides, halerts, hp₂, hk₂⟩ := hk.clear_eq_ok hp
  refine ⟨count, db₁, db₂, hs.execute_ok hsides, ?_, hp₂, hk₂⟩
  rw [← hs.view_withView db₁] at halerts
  have hclear := (hs.withView db₁).execute_ok halerts
  rwa [hs.withView_withView] at hclear

end AlertRow

instance : LawfulRecord Alert AlertRow AlertColumn where
  keeps_empty := .empty rfl rfl
  admits_empty := ⟨fun _ => rfl, fun _ => rfl⟩
  key_toRow h := by
    obtain ⟨_, _, _, rfl⟩ := AlertRow.ofAlert_eq_ok_iff.1 h
    rfl
  key_stamp _ _ _ _ := rfl
  version_stamp _ _ _ _ := rfl
  stamps_stamp _ _ _ _ := rfl
  key_withVersion _ _ := rfl
  version_withVersion _ _ := rfl
  stamp_withVersion _ _ _ _ _ := rfl
  ofRow_stamp _ _ _ _ := rfl
  readable h := by
    obtain ⟨side, _, x, _, _, hback, _⟩ := AlertRow.exists_toAlert_eq_ok h
    exact ⟨_, hback, rfl⟩
  keyOf_stored _ := rfl
  version_stored _ := rfl
  tuples h := h.tuples
  readRow h _ := h.read_stored
  nodup h := h.nodup
  written h := h.written
  filter_eq _ h := by
    show AlertRow.filter _ _ = []
    unfold AlertRow.filter
    rw [h.needle, h.cluster, h.service, h.context]
    rfl
  save_new now _ hs hk hp := AlertRow.save_new hs hk hp now
  save_old now _ hs hk hp := AlertRow.save_old hs hk hp now
  clear_eq := AlertRow.clear_eq

end AlertRegistry
