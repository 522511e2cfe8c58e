import AlertRegistry.Alert.Tuple
import AlertRegistry.Proofs.Database
import AlertRegistry.Proofs.Keyed

/-!
# Alerts in the database

`Database.KeepsAlerts` says that a database keeps a list of rows: they are the tuples of the table
of alerts, in that order, and their side-records are the tuples of the other table, found by the key
of the row. It carries what the schema promises about the two tables: keys are distinct, versions
start at 1, stamps are in order, and no side-record is without its alert.

Each statement on alerts takes a database that keeps some rows, and rejects nothing, to one that
keeps the rows changed in the same way:

* `insert_eq_ok` appends a row, with nothing beside it yet;
* `replace_eq_ok` overwrites the row with the key, but leaves its side-record;
* `writeSide_eq_ok` gives the row with the key another side-record, or takes the old one away;
* `clear_eq_ok` leaves nothing.
-/

namespace AlertRegistry

open Table (keys keyOf Permissive)

/-! ## Side-records -/

namespace SideRecord

theorem accept_tuple (id : String) (r : SideRecord) :
    Table.accept (r.tuple id) = .ok (r.tuple id) := by
  apply Table.accept_eq_ok
  · funext c
    obtain ⟨severity, recipient, attempts, freshness⟩ := r
    cases c with
    | alertId => rfl
    | severity => cases severity <;> rfl
    | recipient => cases recipient <;> rfl
    | attempts => cases attempts <;> rfl
    | freshness => cases freshness <;> rfl
  · intro c hc
    cases c with
    | alertId => exact Cell.noConfusion
    | _ => cases hc
  · intro k hk
    cases hk

/-- A side-record is read back from its tuple. -/
theorem ofTuple_tuple (id : String) (r : SideRecord) : ofTuple (r.tuple id) = .ok (some r) := by
  obtain ⟨severity, recipient, attempts, freshness⟩ := r
  cases severity <;> cases recipient <;> cases attempts <;> cases freshness <;> rfl

end SideRecord

/-! ## Rows -/

namespace AlertRow

/-- The row with another version and other stamps. -/
def stamp (r : AlertRow) (version createdAt updatedAt : Int) : AlertRow :=
  { r with version, createdAt, updatedAt }

/-- The row with another side-record. -/
def withSide (r : AlertRow) (side : Option SideRecord) : AlertRow :=
  { r with side }

/-- The tuple in which a row is kept. -/
def stored (r : AlertRow) : Tuple AlertColumn :=
  r.tuple (.integer r.version) (.integer r.createdAt) (.integer r.updatedAt)

@[simp] theorem keyOf_stored (r : AlertRow) : keyOf r.stored = .text r.id := rfl

/-- The row `u` as `r` overwrites it at the time `now`. -/
def overwriting (r : AlertRow) (now : Int) (u : AlertRow) : AlertRow :=
  (r.stamp (r.version + 1) u.createdAt (max u.createdAt now)).withSide u.side

/-- A tuple is replaced if it has both the identifier and the version of the row. -/
theorem selects_stored (r u : AlertRow) :
    (u.stored .id = .text r.id && u.stored .version = .integer r.version : Bool) = true
      ↔ u.id = r.id ∧ u.version = r.version := by
  show (decide (Cell.text u.id = .text r.id)
      && decide (Cell.integer u.version = .integer r.version)) = true ↔ _
  simp only [Bool.and_eq_true, decide_eq_true_eq, Cell.text.injEq, Cell.integer.injEq]

/-- What replaces a tuple is the tuple of the overwritten row, as long as versions can grow. -/
theorem tuple_overwriting {r : AlertRow} (hmax : r.version < Text.maxInt64) (now : Int)
    (u : AlertRow) :
    r.tuple (.next r.version) (u.stored .createdAt)
      (Cell.later (u.stored .createdAt) (.integer now)) = (r.overwriting now u).stored := by
  show r.tuple (.next r.version) (.integer u.createdAt)
    (Cell.later (.integer u.createdAt) (.integer now)) = _
  rw [Cell.next_eq hmax, Cell.later_integer]
  rfl

/-- The tuple of a row is admitted with a version of at least 1 and stamps in order. -/
theorem accept_tuple (r : AlertRow) {v c u : Cell} (hv : v.IsStamp) (hc : c.IsStamp)
    (hu : u.IsStamp) (hversion : v.permitsGe (.integer 1) = true) (hstamps : u.permitsGe c = true) :
    Table.accept (r.tuple v c u) = .ok (r.tuple v c u) := by
  apply Table.accept_eq_ok
  · funext column
    cases column with
    | version => exact hv.kept
    | createdAt => exact hc.kept
    | updatedAt => exact hu.kept
    | _ => rfl
  · intro column _
    cases column with
    | version => exact hv.notNull
    | createdAt => exact hc.notNull
    | updatedAt => exact hu.notNull
    | _ => exact Cell.noConfusion
  · intro k hk
    rcases List.mem_pair.1 hk with rfl | rfl
    · exact hversion
    · exact hstamps

/-- The tuple of a row that was written at least once, the last time not before the first, is
admitted. -/
theorem accept_stored {r : AlertRow} (hv : 1 ≤ r.version) (hs : r.createdAt ≤ r.updatedAt) :
    Table.accept r.stored = .ok r.stored :=
  r.accept_tuple (Cell.isStamp_integer _) (Cell.isStamp_integer _) (Cell.isStamp_integer _)
    (Cell.permitsGe_integer hv) (Cell.permitsGe_integer hs)

/-- A row is read back from its tuple and that of its side-record. -/
theorem ofTuple_stored (r : AlertRow) :
    ofTuple r.stored (r.side.map (·.tuple r.id)) = .ok r := by
  obtain ⟨_, _, _, _, _, _, _, _, _, _, _, _, _, side⟩ := r
  cases side with
  | none => rfl
  | some side =>
    unfold ofTuple
    simp only [Option.map_some, SideRecord.ofTuple_tuple]
    rfl

/-- The identifiers of rows. -/
def ids (rows : List AlertRow) : List String :=
  rows.map AlertRow.id

theorem text_mem_keys_stored {rows : List AlertRow} {id : String} :
    Cell.text id ∈ keys (rows.map stored) ↔ id ∈ ids rows :=
  Table.text_mem_keys_stored keyOf_stored

/-! ## What is beside a row -/

/-- The side-records after that of a row is written: it takes the place of the one under its key, or
is the last one; a row without side-record leaves none under its key. -/
def besides (r : AlertRow) (ts : List (Tuple SideColumn)) : List (Tuple SideColumn) :=
  match r.side with
  | some side => Keyed.put keyOf (side.tuple r.id) ts
  | none => Keyed.remove keyOf (.text r.id) ts

section

variable (r : AlertRow) {ts : List (Tuple SideColumn)} {key : Cell}

theorem find?_besides_self :
    (r.besides ts).find? (fun t => keyOf t = .text r.id) = r.side.map (·.tuple r.id) := by
  unfold besides
  cases r.side with
  | none => exact Keyed.find?_remove_self
  | some side => exact Keyed.find?_put_self (a := side.tuple r.id)

theorem find?_besides_of_ne (h : key ≠ .text r.id) :
    (r.besides ts).find? (fun t => keyOf t = key) = ts.find? fun t => keyOf t = key := by
  unfold besides
  cases r.side with
  | none => exact Keyed.find?_remove_of_ne h
  | some side => exact Keyed.find?_put_of_ne h

/-- No key is new among the side-records but that of the row. -/
theorem mem_keys_besides (h : key ∈ keys (r.besides ts)) : key = .text r.id ∨ key ∈ keys ts := by
  unfold besides at h
  cases hs : r.side with
  | none =>
    rw [hs] at h
    exact .inr (Keyed.mem_map_key_remove.1 h).1
  | some side =>
    rw [hs] at h
    exact (Keyed.mem_map_key_put.1 h).symm

theorem nodup_keys_besides (h : (keys ts).Nodup) : (keys (r.besides ts)).Nodup := by
  unfold besides
  cases r.side with
  | none => exact h.sublist (List.filter_sublist.map keyOf)
  | some side => exact Keyed.nodup_map_key_put h

/-- What holds of the side-records, and of that of the row, still does. -/
theorem forall_mem_besides {P : Tuple SideColumn → Prop} (h : ∀ t ∈ ts, P t)
    (hside : ∀ side : SideRecord, P (side.tuple r.id)) : ∀ t ∈ r.besides ts, P t := by
  unfold besides
  cases r.side with
  | none => exact fun t ht => h t (List.mem_of_mem_filter ht)
  | some side =>
    intro t ht
    rcases Keyed.mem_put ht with rfl | ht
    · exact hside side
    · exact h t ht

/-- A row writes what is beside it by one statement. -/
theorem writeSide_eq {db : Database} (hp : db.sides.Permissive)
    (hnd : (keys db.sides.tuples).Nodup) :
    ∃ count, r.writeSide db = (db.withSides (r.besides db.sides.tuples)).finish count := by
  unfold writeSide besides
  cases r.side with
  | some side =>
    exact ⟨1, Database.putSide_of_ok (Table.put_eq_ok hp (side.accept_tuple r.id) hnd)⟩
  | none =>
    have hremove : db.sides.tuples.filter (fun t => !decide (t .alertId = .text r.id))
        = Keyed.remove keyOf (.text r.id) db.sides.tuples := by
      apply List.filter_congr
      intro t _
      exact decide_not.symm
    have hdelete := Database.deleteSides_of_ok
      (Table.delete_eq_ok hp fun t => t .alertId = .text r.id)
    rw [hremove] at hdelete
    exact ⟨_, hdelete⟩

end

end AlertRow

/-- The database keeps the rows: they are its alerts, in that order, with their side-records beside
them. -/
structure Database.KeepsAlerts (db : Database) (rows : List AlertRow) : Prop where
  /-- The alerts are the tuples of the rows. -/
  tuples : db.alerts.tuples = rows.map AlertRow.stored
  /-- No two rows have one identifier. -/
  nodup : (AlertRow.ids rows).Nodup
  /-- Rows were written at least once. -/
  written : ∀ r ∈ rows, 1 ≤ r.version
  /-- Stamps are in order. -/
  stamps : ∀ r ∈ rows, r.createdAt ≤ r.updatedAt
  /-- The side-record of a row is the tuple under its identifier. -/
  sides : ∀ r ∈ rows, db.sides.find? (.text r.id) = r.side.map (·.tuple r.id)
  /-- No two side-records have one key. -/
  sideKeys : (keys db.sides.tuples).Nodup
  /-- The keys of side-records are identifiers of rows. -/
  sideIds : ∀ key ∈ keys db.sides.tuples, ∃ id ∈ AlertRow.ids rows, key = .text id

/-- Neither of the tables of alerts rejects anything. -/
structure Database.AdmitsAlerts (db : Database) : Prop where
  /-- Alerts are not rejected. -/
  alerts : db.alerts.Permissive
  /-- Side-records are not rejected. -/
  sides : db.sides.Permissive

namespace Database

theorem AdmitsAlerts.congr {db db' : Database} (h : db.AdmitsAlerts) (ha : db'.alerts = db.alerts)
    (hs : db'.sides = db.sides) : db'.AdmitsAlerts :=
  ⟨ha ▸ h.alerts, hs ▸ h.sides⟩

theorem AdmitsAlerts.withAlerts {db : Database} (h : db.AdmitsAlerts)
    (ts : List (Tuple AlertColumn)) : (db.withAlerts ts).AdmitsAlerts :=
  ⟨h.alerts, h.sides⟩

theorem AdmitsAlerts.withSides {db : Database} (h : db.AdmitsAlerts)
    (ts : List (Tuple SideColumn)) : (db.withSides ts).AdmitsAlerts :=
  ⟨h.alerts, h.sides⟩

end Database

namespace Database.KeepsAlerts

open AlertRow (ids stored)

variable {db : Database} {rows : List AlertRow}

/-! ## Reading -/

theorem empty {db : Database} (ha : db.alerts.tuples = []) (hs : db.sides.tuples = []) :
    db.KeepsAlerts [] where
  tuples := ha
  nodup := .nil
  written := by simp
  stamps := by simp
  sides := by simp
  sideKeys := by simp [hs, keys]
  sideIds := by simp [hs, keys]

/-- Other tables do not matter. -/
theorem congr (h : db.KeepsAlerts rows) {db' : Database} (ha : db'.alerts = db.alerts)
    (hs : db'.sides = db.sides) : db'.KeepsAlerts rows where
  tuples := ha ▸ h.tuples
  nodup := h.nodup
  written := h.written
  stamps := h.stamps
  sides := hs ▸ h.sides
  sideKeys := hs ▸ h.sideKeys
  sideIds := hs ▸ h.sideIds

theorem finish (h : db.KeepsAlerts rows) (count : Nat) :
    db.finish count = .ok { database := db, count } := by
  refine finish_of_subset ?_ count
  intro key hkey
  obtain ⟨id, hid, rfl⟩ := h.sideIds key hkey
  rw [h.tuples]
  exact AlertRow.text_mem_keys_stored.2 hid

/-- A row is read as it is kept. -/
theorem read_stored (h : db.KeepsAlerts rows) {r : AlertRow} (hr : r ∈ rows) :
    AlertRow.read db r.stored = .ok r := by
  unfold AlertRow.read
  rw [AlertRow.keyOf_stored, h.sides r hr, AlertRow.ofTuple_stored]

/-- There is no side-record without its alert. -/
theorem find?_side_eq_none (h : db.KeepsAlerts rows) {id : String} (hid : id ∉ ids rows) :
    db.sides.find? (.text id) = none := by
  rw [Table.find?_eq_none_iff]
  intro hmem
  obtain ⟨id', hid', heq⟩ := h.sideIds _ hmem
  cases heq
  exact hid hid'

/-! ## Writing -/

/-- A row with a new identifier goes to the end, with nothing beside it. -/
theorem insert_eq_ok (h : db.KeepsAlerts rows) (hp : db.AdmitsAlerts) (now : Int) {r : AlertRow}
    (hr : r.id ∉ ids rows) :
    ∃ db', AlertRow.insert now r db = .ok { database := db', count := 1 } ∧ db'.AdmitsAlerts
      ∧ db'.KeepsAlerts (rows ++ [(r.stamp 1 now now).withSide none]) := by
  let r' := (r.stamp 1 now now).withSide none
  have hid : r'.id = r.id := rfl
  have haccept : Table.accept r'.stored = .ok r'.stored :=
    AlertRow.accept_stored (Int.le_refl 1) (Int.le_refl now)
  have hfresh : keyOf r'.stored ∉ keys db.alerts.tuples := by
    rw [h.tuples, AlertRow.keyOf_stored, AlertRow.text_mem_keys_stored]
    exact hr
  have hkeeps : (db.withAlerts (db.alerts.tuples ++ [r'.stored])).KeepsAlerts (rows ++ [r']) := {
    tuples := by
      show db.alerts.tuples ++ [r'.stored] = _
      rw [h.tuples, List.map_append]
      rfl
    nodup := by
      unfold ids
      rw [List.map_append, List.map_singleton]
      exact h.nodup.append (List.nodup_singleton _) (by simpa [hid] using hr)
    written := List.forall_mem_append.2 ⟨h.written, by simp [r', AlertRow.stamp, AlertRow.withSide]⟩
    stamps := List.forall_mem_append.2 ⟨h.stamps, by simp [r', AlertRow.stamp, AlertRow.withSide]⟩
    sides := by
      rw [List.forall_mem_append]
      refine ⟨h.sides, ?_⟩
      rw [List.forall_mem_singleton]
      exact h.find?_side_eq_none hr
    sideKeys := h.sideKeys
    sideIds := by
      intro key hkey
      obtain ⟨id, hmem, heq⟩ := h.sideIds key hkey
      refine ⟨id, ?_, heq⟩
      unfold ids
      rw [List.map_append]
      exact List.mem_append_left _ hmem }
  refine ⟨_, ?_, hp.withAlerts _, hkeeps⟩
  exact (insertAlert_of_ok (Table.insert_eq_ok hp.alerts haccept hfresh)).trans (hkeeps.finish 1)

/-- Rows that are changed in their places, and keep their identifiers and side-records, are kept as
changed. -/
theorem change (h : db.KeepsAlerts rows) {id : String} {f : AlertRow → AlertRow}
    (hid : ∀ u, u.id = id → (f u).id = id)
    (hwritten : ∀ u ∈ rows, u.id = id → 1 ≤ (f u).version)
    (hstamps : ∀ u ∈ rows, u.id = id → (f u).createdAt ≤ (f u).updatedAt)
    (hside : ∀ u, (f u).side = u.side) :
    (db.withAlerts ((Keyed.change AlertRow.id id f rows).map stored)).KeepsAlerts
      (Keyed.change AlertRow.id id f rows) := by
  have hids : ids (Keyed.change AlertRow.id id f rows) = ids rows := Keyed.map_key_change hid
  refine {
    tuples := rfl
    nodup := by
      rw [hids]
      exact h.nodup
    written := Keyed.forall_mem_change hwritten fun u hu _ => h.written u hu
    stamps := Keyed.forall_mem_change hstamps fun u hu _ => h.stamps u hu
    sides := Keyed.forall_mem_change ?_ fun u hu _ => h.sides u hu
    sideKeys := h.sideKeys
    sideIds := by
      rw [hids]
      exact h.sideIds }
  intro u hu hk
  rw [hside u, hid u hk, ← hk]
  exact h.sides u hu

/-- A row whose version is the stored one overwrites the row with its identifier, whose version
grows by one; the second stamp does not go back, and what is beside the row stays. -/
theorem replace_eq_ok (h : db.KeepsAlerts rows) (hp : db.AdmitsAlerts) (now : Int) {r : AlertRow}
    (hr : r.id ∈ ids rows) (hv : ∀ u ∈ rows, u.id = r.id → u.version = r.version)
    (hmax : r.version < Text.maxInt64) :
    ∃ db', AlertRow.replace now r db = .ok { database := db', count := 1 } ∧ db'.AdmitsAlerts
      ∧ db'.KeepsAlerts (Keyed.change AlertRow.id r.id (r.overwriting now) rows) := by
  let select (t : Tuple AlertColumn) : Bool :=
    t .id = .text r.id && t .version = .integer r.version
  let overwrite (t : Tuple AlertColumn) : Tuple AlertColumn :=
    r.tuple (.next r.version) (t .createdAt) (Cell.later (t .createdAt) (.integer now))
  -- the version is the stored one, so it is only by its identifier that a row is selected
  have hselect : ∀ u ∈ rows, (select u.stored = true ↔ u.id = r.id) := by
    intro u hu
    rw [AlertRow.selects_stored]
    exact ⟨And.left, fun hid => ⟨hid, hv u hu hid⟩⟩
  have hversion : ∀ u ∈ rows, u.id = r.id → 1 ≤ r.version + 1 := by
    intro u hu hid
    have := h.written u hu
    have := hv u hu hid
    omega
  have hupdate := Table.update_rows (p := select) (g := overwrite)
    (f := r.overwriting now) hp.alerts h.tuples AlertRow.keyOf_stored h.nodup hr hselect
    (fun u _ _ => AlertRow.tuple_overwriting hmax now u)
    (fun u hu hid => AlertRow.accept_stored (hversion u hu hid) (Int.le_max_left _ _))
    fun _ _ => rfl
  have hkeeps := h.change (f := r.overwriting now) (fun _ _ => rfl) hversion
    (fun _ _ _ => Int.le_max_left _ _) fun _ => rfl
  refine ⟨_, ?_, hp.withAlerts _, hkeeps⟩
  exact (updateAlerts_of_ok hupdate).trans (hkeeps.finish 1)

/-- If the side-records change under one identifier only, so do the rows. -/
theorem withSides (h : db.KeepsAlerts rows) {id : String} {side : Option SideRecord}
    {ts : List (Tuple SideColumn)}
    (hself : ts.find? (fun t => keyOf t = .text id) = side.map (·.tuple id))
    (hother : ∀ id', id' ≠ id → ts.find? (fun t => keyOf t = .text id')
      = db.sides.tuples.find? fun t => keyOf t = .text id')
    (hnd : (keys ts).Nodup) (hids : ∀ key ∈ keys ts, ∃ id ∈ ids rows, key = .text id) :
    (db.withSides ts).KeepsAlerts (Keyed.change AlertRow.id id (·.withSide side) rows) := by
  have hsame : ids (Keyed.change AlertRow.id id (·.withSide side) rows) = ids rows :=
    Keyed.map_key_change fun _ hu => hu
  -- what is beside a row is not in its tuple
  have hstored : (Keyed.change AlertRow.id id (·.withSide side) rows).map stored
      = rows.map stored := by
    unfold Keyed.change
    rw [List.map_map]
    apply List.map_congr_left
    intro u _
    show (if u.id = id then u.withSide side else u).stored = u.stored
    split <;> rfl
  refine {
    tuples := by
      rw [hstored]
      exact h.tuples
    nodup := by
      rw [hsame]
      exact h.nodup
    written := Keyed.forall_mem_change (fun u hu _ => h.written u hu) fun u hu _ => h.written u hu
    stamps := Keyed.forall_mem_change (fun u hu _ => h.stamps u hu) fun u hu _ => h.stamps u hu
    sides := Keyed.forall_mem_change ?_ fun u hu hk => (hother u.id hk).trans (h.sides u hu)
    sideKeys := hnd
    sideIds := by
      rw [hsame]
      exact hids }
  intro u _ hk
  show ts.find? (fun t => keyOf t = .text u.id) = side.map (·.tuple u.id)
  rw [hk]
  exact hself

/-- What is beside the row with the identifier is what the row says, also if that is nothing. -/
theorem writeSide_eq_ok (h : db.KeepsAlerts rows) (hp : db.AdmitsAlerts) {r : AlertRow}
    (hr : r.id ∈ ids rows) :
    ∃ db' count, r.writeSide db = .ok { database := db', count } ∧ db'.AdmitsAlerts
      ∧ db'.KeepsAlerts (Keyed.change AlertRow.id r.id (·.withSide r.side) rows) := by
  have hne : ∀ {id' : String}, id' ≠ r.id → Cell.text id' ≠ .text r.id :=
    fun hid heq => hid (Cell.text.inj heq)
  obtain ⟨count, hwrite⟩ := r.writeSide_eq hp.sides h.sideKeys
  have hids : ∀ key ∈ keys (r.besides db.sides.tuples), ∃ id ∈ ids rows, key = .text id := by
    intro key hkey
    rcases r.mem_keys_besides hkey with hnew | hold
    · exact ⟨r.id, hr, hnew⟩
    · exact h.sideIds key hold
  have hkeeps : (db.withSides (r.besides db.sides.tuples)).KeepsAlerts
      (Keyed.change AlertRow.id r.id (·.withSide r.side) rows) :=
    h.withSides r.find?_besides_self (fun id' hid => r.find?_besides_of_ne (hne hid))
      (r.nodup_keys_besides h.sideKeys) hids
  exact ⟨_, count, hwrite.trans (hkeeps.finish count), hp.withSides _, hkeeps⟩

/-- Without their alerts, side-records are none. -/
theorem clear_eq_ok (h : db.KeepsAlerts rows) (hp : db.AdmitsAlerts) :
    ∃ db₁ count db₂, Database.deleteSides (fun _ => true) db = .ok { database := db₁, count }
      ∧ Database.deleteAlerts (fun _ => true) db₁ = .ok { database := db₂, count := rows.length }
      ∧ db₂.AdmitsAlerts ∧ db₂.KeepsAlerts [] := by
  let db₁ := db.withSides []
  let db₂ := db₁.withAlerts []
  have hempty : db₂.KeepsAlerts [] := .empty rfl rfl
  refine ⟨db₁, db.sides.count fun _ => true, db₂, ?_, ?_, (hp.withSides _).withAlerts _, hempty⟩
  · rw [deleteSides_of_ok (Table.delete_eq_ok hp.sides _)]
    simp only [Bool.not_true, List.filter_false]
    rfl
  · have hcount : db.alerts.count (fun _ => true) = rows.length := by
      unfold Table.count
      rw [List.countP_true, h.tuples, List.length_map]
    -- the side-records of the alerts would go with them, but there are none left
    show (db.alerts.delete (fun _ => true) >>= fun T => db₁.sides.delete (fun s =>
      Table.hasKey (keyOf s) (db.alerts.tuples.filter fun _ => true)) >>= fun U =>
      Database.finish { db₁ with alerts := T, sides := U } (db.alerts.count fun _ => true)) = _
    rw [Table.delete_eq_ok hp.alerts, hcount]
    simp only [Bool.not_true, List.filter_false, bind, Except.bind]
    exact hempty.finish _

end Database.KeepsAlerts

end AlertRegistry
