import AlertRegistry.Proofs.Keyed
import AlertRegistry.Proofs.Page
import AlertRegistry.Proofs.Selection
import AlertRegistry.Proofs.Store
import AlertRegistry.Proofs.Table
import AlertRegistry.Repository.Basic

/-!
# Lawful records

A kind of records is stored as a list of rows: `StoredRecord.Keeps` says that a database keeps a
list of rows, and the laws (`LawfulRecord`) say that saving and clearing change that list as they
should, provided that the database rejects nothing (`StoredRecord.Admits`).

A row that carries the version of the one under its key, 0 if there is none, is written over it
(`save_eq`).

What is read of the database is then read of the list: the number of rows (`countRows_eq`), the row
under a key (`findRow_eq`) or its version (`storedVersion_eq`), and the page of a query for all
records (`fetchPage_eq`).
-/

namespace AlertRegistry

/-- The query asks for all records. -/
structure Query.IsUnfiltered (q : Query) : Prop where
  /-- No text is looked for. -/
  needle : q.needle = none
  /-- All clusters are wanted. -/
  cluster : q.cluster = none
  /-- All services are wanted. -/
  service : q.service = none
  /-- All contexts are wanted. -/
  context : q.context = none

theorem select_nil {γ : Type} (ts : List (Tuple γ)) : Filter.select [] ts = .ok ts := by
  induction ts with
  | nil => rfl
  | cons t ts ih =>
    unfold Filter.select
    rw [ih]
    rfl

/-! ## Saving -/

section

variable {α ρ γ : Type} [Record α ρ γ] {s s' : Store} {r : ρ} {count : Nat}

theorem saveBeside_of_write {write : ρ → Statement} (hw : Record.writeBeside α = some write)
    (h : s.execute (write r) = (.ok count, s')) : saveBeside α r s = (.ok (), s') := by
  unfold saveBeside
  rw [hw]
  dsimp only
  rw [h]

/-- A row that is not stored yet is inserted. -/
theorem save_of_insert {now : Int} (hv : Record.version α r = 0)
    (h : s.execute (Record.insert α now r) = (.ok count, s')) :
    save α now r s = saveBeside α r s' := by
  unfold save
  rw [if_pos hv, h]

/-- A row in the stored version is replaced. -/
theorem save_of_replace {now : Int} (hv : Record.version α r ≠ 0)
    (h : s.execute (Record.replace α now r) = (.ok (count + 1), s')) :
    save α now r s = saveBeside α r s' := by
  unfold save
  rw [if_neg hv, h]
  rfl

/-- A row in version 0 that cannot be inserted is refused for that reason. -/
theorem save_of_insert_error {now : Int} {e : StoreError} (hv : Record.version α r = 0)
    (h : s.execute (Record.insert α now r) = (.error e, s')) :
    save α now r s = (.error (.access (.store e)), s') := by
  unfold save
  rw [if_pos hv, h]

/-- A row in another version that replaces nothing is refused for its version. -/
theorem save_of_replace_none {now : Int} (hv : Record.version α r ≠ 0)
    (h : s.execute (Record.replace α now r) = (.ok 0, s')) :
    save α now r s = (.error (versionError α r), s') := by
  unfold save
  rw [if_neg hv, h]
  rfl

end

/-! ## Laws -/

/-- How the rows of a kind of records are kept. -/
class StoredRecord (α : Type) (ρ γ : outParam Type) [Record α ρ γ] where
  /-- The tuple in which a row is kept. -/
  stored : ρ → Tuple γ
  /-- The row with another version and other stamps. -/
  stamp : ρ → Int → Int → Int → ρ
  /-- The database keeps the rows, in that order. -/
  Keeps : Database → List ρ → Prop
  /-- The database rejects no change of the rows. -/
  Admits : Database → Prop

section

variable (α : Type) {ρ γ : Type} [Record α ρ γ]

/-- The row under a key. -/
def rowAt (key : String) (rows : List ρ) : Option ρ :=
  rows.find? fun r => Record.key α r = key

theorem mem_of_rowAt {rows : List ρ} {key : String} {r : ρ} (h : rowAt α key rows = some r) :
    r ∈ rows ∧ Record.key α r = key :=
  ⟨List.mem_of_find?_eq_some h, by simpa using List.find?_some h⟩

theorem rowAt_isSome {rows : List ρ} {key : String} :
    (rowAt α key rows).isSome = true ↔ key ∈ rows.map (Record.key α) := by
  unfold rowAt
  simp [List.mem_map]

variable {α} in
theorem rowAt_put_self {rows : List ρ} {r : ρ} :
    rowAt α (Record.key α r) (Keyed.put (Record.key α) r rows) = some r :=
  Keyed.find?_put_self

variable {α} in
theorem rowAt_put_of_ne {rows : List ρ} {r : ρ} {key : String} (h : key ≠ Record.key α r) :
    rowAt α key (Keyed.put (Record.key α) r rows) = rowAt α key rows :=
  Keyed.find?_put_of_ne h

/-- The row that is stored when a row is written at a time, over an old row or as a new one. -/
def writtenOver [StoredRecord α ρ γ] (now : Int) (r : ρ) : Option ρ → ρ
  | none => StoredRecord.stamp α r 1 now now
  | some u =>
    StoredRecord.stamp α r (Record.version α u + 1) (Record.stamps α u).1
      (max (Record.stamps α u).1 now)

end

open StoredRecord (Keeps Admits stored stamp)

/-- A kind of records whose rows are read as they are kept, and written in their places. -/
class LawfulRecord (α : Type) (ρ γ : outParam Type) [Layout γ] [Record α ρ γ]
    [StoredRecord α ρ γ] : Prop where
  keeps_empty : Keeps α {} []
  admits_empty : Admits α {}
  key_toRow {a : α} {r : ρ} : Record.toRow a = .ok r → Record.key α r = toString (Record.id a)
  key_stamp (r : ρ) (v c u : Int) : Record.key α (stamp α r v c u) = Record.key α r
  version_stamp (r : ρ) (v c u : Int) : Record.version α (stamp α r v c u) = v
  stamps_stamp (r : ρ) (v c u : Int) : Record.stamps α (stamp α r v c u) = (c, u)
  key_withVersion (r : ρ) (v : Int) : Record.key α (Record.withVersion α r v) = Record.key α r
  version_withVersion (r : ρ) (v : Int) : Record.version α (Record.withVersion α r v) = v
  stamp_withVersion (r : ρ) (w v c u : Int) :
    stamp α (Record.withVersion α r w) v c u = stamp α r v c u
  ofRow_stamp (r : ρ) (v c u : Int) :
    (Record.ofRow (stamp α r v c u) : Except RowError α) = Record.ofRow r
  /-- Rows of records denote records. -/
  readable {a : α} {r : ρ} : Record.toRow a = .ok r →
    ∃ b : α, Record.ofRow r = .ok b ∧ Record.id b = Record.id a
  keyOf_stored (r : ρ) : Table.keyOf (stored α r) = .text (Record.key α r)
  version_stored (r : ρ) : stored α r (Record.versionColumn α) = .integer (Record.version α r)
  tuples {db : Database} {rows : List ρ} : Keeps α db rows →
    (Record.table α db).tuples = rows.map (stored α)
  readRow {db : Database} {rows : List ρ} : Keeps α db rows → ∀ r ∈ rows,
    Record.readRow α db (stored α r) = .ok r
  nodup {db : Database} {rows : List ρ} : Keeps α db rows → (rows.map (Record.key α)).Nodup
  /-- Rows were written at least once. -/
  written {db : Database} {rows : List ρ} : Keeps α db rows → ∀ r ∈ rows, 1 ≤ Record.version α r
  filter_eq {q : Query} (strategy : Strategy) : q.IsUnfiltered → Record.filter α strategy q = []
  /-- A row in version 0 with a new key is kept after all others. -/
  save_new {s : Store} {rows : List ρ} (now : Int) {r : ρ} : s.Alone → Keeps α s.view rows →
    Admits α s.view → Record.version α r = 0 → Record.key α r ∉ rows.map (Record.key α) →
    ∃ db', save α now r s = (.ok (), s.withView db') ∧ Admits α db'
      ∧ Keeps α db' (rows ++ [stamp α r 1 now now])
  /-- A row in the stored version is kept in the place of the one under its key. -/
  save_old {s : Store} {rows : List ρ} (now : Int) {r : ρ} : s.Alone → Keeps α s.view rows →
    Admits α s.view → Record.version α r ≠ 0 → Record.key α r ∈ rows.map (Record.key α) →
    (∀ u ∈ rows, Record.key α u = Record.key α r → Record.version α u = Record.version α r) →
    Record.version α r < Text.maxInt64 →
    ∃ db', save α now r s = (.ok (), s.withView db') ∧ Admits α db'
      ∧ Keeps α db' (Keyed.change (Record.key α) (Record.key α r)
        (fun u => stamp α r (Record.version α r + 1) (Record.stamps α u).1
          (max (Record.stamps α u).1 now)) rows)
  /-- What is beside the rows is removed, and then the rows are. -/
  clear_eq {s : Store} {rows : List ρ} : s.Alone → Keeps α s.view rows → Admits α s.view →
    ∃ count db₁ db₂, Repository.executeIfAny (Record.clearBeside α) s = (.ok count, s.withView db₁)
      ∧ (s.withView db₁).execute (Record.clear α) = (.ok rows.length, s.withView db₂)
      ∧ Admits α db₂ ∧ Keeps α db₂ []

variable {α ρ γ : Type} [Layout γ] [Record α ρ γ] [StoredRecord α ρ γ] [LawfulRecord α ρ γ]

/-! ## Writing over -/

theorem key_writtenOver (now : Int) (r : ρ) (old : Option ρ) :
    Record.key α (writtenOver α now r old) = Record.key α r := by
  cases old <;> exact LawfulRecord.key_stamp ..

/-- The row that is stored denotes what the written one does. -/
theorem ofRow_writtenOver (now : Int) (r : ρ) (old : Option ρ) :
    (Record.ofRow (writtenOver α now r old) : Except RowError α) = Record.ofRow r := by
  cases old <;> exact LawfulRecord.ofRow_stamp ..

/-! ## Saving under a key -/

section

variable {s : Store} {rows : List ρ} {r : ρ}

omit [Layout γ] [StoredRecord α ρ γ] [LawfulRecord α ρ γ] in
/-- Under a key that is not used there is no row. -/
theorem rowAt_eq_none_iff {key : String} :
    rowAt α key rows = none ↔ key ∉ rows.map (Record.key α) := by
  rw [← rowAt_isSome, Option.not_isSome_iff_eq_none]

/-- As keys are distinct, the row under a key is the only one with it. -/
theorem rowAt_eq_some_iff {db : Database} (hk : Keeps α db rows) {key : String} {u : ρ} :
    rowAt α key rows = some u ↔ u ∈ rows ∧ Record.key α u = key := by
  refine ⟨mem_of_rowAt α, ?_⟩
  rintro ⟨hu, rfl⟩
  exact Keyed.find?_eq_some_of_mem (LawfulRecord.nodup hk) hu

theorem eq_of_rowAt {db : Database} (hk : Keeps α db rows) {key : String} {u : ρ}
    (h : rowAt α key rows = some u) : ∀ w ∈ rows, Record.key α w = key → w = u := by
  intro w hw hkey
  rw [(rowAt_eq_some_iff hk).2 ⟨hw, hkey⟩] at h
  exact Option.some.inj h

/-- What is written under a new key goes to the end. -/
theorem put_writtenOver_none (now : Int) (h : Record.key α r ∉ rows.map (Record.key α)) :
    Keyed.put (Record.key α) (writtenOver α now r none) rows = rows ++ [stamp α r 1 now now] := by
  refine if_neg ?_
  rwa [key_writtenOver]

/-- What is written over a row takes its place. -/
theorem put_writtenOver_some {db : Database} (hk : Keeps α db rows) (now : Int) {u : ρ}
    (h : rowAt α (Record.key α r) rows = some u) :
    Keyed.put (Record.key α) (writtenOver α now r (some u)) rows
      = Keyed.change (Record.key α) (Record.key α r)
        (fun w => stamp α r (Record.version α u + 1) (Record.stamps α w).1
          (max (Record.stamps α w).1 now)) rows := by
  have hmem : Record.key α r ∈ rows.map (Record.key α) := (rowAt_isSome α).1 (h ▸ rfl)
  unfold Keyed.put
  rw [key_writtenOver, if_pos hmem]
  apply Keyed.change_congr
  intro w hw hwkey
  rw [eq_of_rowAt hk h w hw hwkey]
  rfl

/-- A row that carries the version of the one under its key is written over it. -/
theorem save_eq (now : Int) (r : ρ) (hs : s.Alone) (hk : Keeps α s.view rows)
    (ha : Admits α s.view) (hmax : ∀ u ∈ rows, Record.version α u < Text.maxInt64) :
    ∃ db', save α now (Record.withVersion α r
        (((rowAt α (Record.key α r) rows).map (Record.version α)).getD 0)) s
        = (.ok (), s.withView db')
      ∧ Admits α db'
      ∧ Keeps α db' (Keyed.put (Record.key α)
        (writtenOver α now r (rowAt α (Record.key α r) rows)) rows) := by
  cases hold : rowAt α (Record.key α r) rows with
  | none =>
    have hnew := rowAt_eq_none_iff.1 hold
    have hsave := LawfulRecord.save_new (r := Record.withVersion α r 0) now hs hk ha
      (LawfulRecord.version_withVersion r 0) (by rwa [LawfulRecord.key_withVersion])
    rwa [LawfulRecord.stamp_withVersion, ← put_writtenOver_none now hnew] at hsave
  | some u =>
    obtain ⟨hu, hkey⟩ := mem_of_rowAt α hold
    have hpos : Record.version α u ≠ 0 := by
      have := LawfulRecord.written hk u hu
      omega
    have hsave := LawfulRecord.save_old (r := Record.withVersion α r (Record.version α u)) now hs hk
      ha (by rwa [LawfulRecord.version_withVersion])
      (by
        rw [LawfulRecord.key_withVersion]
        exact (rowAt_isSome α).1 (hold ▸ rfl))
      (by
        intro w hw hwkey
        rw [LawfulRecord.key_withVersion] at hwkey
        rw [LawfulRecord.version_withVersion, eq_of_rowAt hk hold w hw hwkey])
      (by
        rw [LawfulRecord.version_withVersion]
        exact hmax u hu)
    rw [put_writtenOver_some hk now hold]
    simp only [LawfulRecord.key_withVersion, LawfulRecord.version_withVersion,
      LawfulRecord.stamp_withVersion] at hsave
    exact hsave

end

/-! ## Reading -/

section

variable {db : Database} {rows : List ρ}

theorem find?_table (h : Keeps α db rows) (key : String) :
    (Record.table α db).find? (.text key) = (rowAt α key rows).map (stored α) := by
  unfold Table.find? rowAt
  rw [LawfulRecord.tuples h, List.find?_map]
  congr 2
  funext r
  show decide (Table.keyOf (stored α r) = .text key) = decide (Record.key α r = key)
  rw [LawfulRecord.keyOf_stored]
  simp

theorem countRows_eq (h : Keeps α db rows) : countRows α db = rows.length := by
  unfold countRows
  rw [LawfulRecord.tuples h, List.length_map]

theorem findRow_eq (h : Keeps α db rows) (key : String) :
    findRow α key db = .ok (rowAt α key rows) := by
  unfold findRow
  rw [find?_table h]
  cases hr : rowAt α key rows with
  | none => rfl
  | some r =>
    have hread := LawfulRecord.readRow h r (mem_of_rowAt α hr).1
    simp only [Option.map_some, hread]
    rfl

theorem storedVersion_eq (h : Keeps α db rows) (key : String) :
    storedVersion α key db = .ok ((rowAt α key rows).map (Record.version α)) := by
  unfold storedVersion
  rw [find?_table h]
  cases rowAt α key rows with
  | none => rfl
  | some r =>
    simp only [Option.map_some, LawfulRecord.version_stored]
    rfl

theorem mapM_readRow (h : Keeps α db rows) {rs : List ρ} (hrs : ∀ r ∈ rs, r ∈ rows) :
    (rs.map (stored α)).mapM (Record.readRow α db) = .ok rs := by
  induction rs with
  | nil => rfl
  | cons r rs ih =>
    rw [List.map_cons, List.mapM_cons, LawfulRecord.readRow h r (hrs r List.mem_cons_self),
      ih fun r' hr' => hrs r' (List.mem_cons_of_mem r hr')]
    rfl

/-- The page of a query for all records is a slice of the rows. -/
theorem fetchPage_eq (h : Keeps α db rows) (strategy : Strategy) {q : Query} (hq : q.IsUnfiltered) :
    fetchPage α strategy q db
      = .ok { rows := slice q.offset q.limit rows, total := rows.length } := by
  rw [fetchPage_eq_select]
  -- without conditions every tuple is selected
  rw [LawfulRecord.filter_eq strategy hq, select_nil, LawfulRecord.tuples h]
  simp only [bind, Except.bind, slice_map, List.length_map]
  rw [mapM_readRow h fun r hr => (slice_isInfix q.offset q.limit rows).subset hr]
  rfl

end

end AlertRegistry
