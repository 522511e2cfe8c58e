import AlertRegistry.Proofs.Alert.Lawful
import AlertRegistry.Proofs.Expression.Lawful
import AlertRegistry.Proofs.Repository.Steps
import AlertRegistry.Proofs.Stamped

/-!
# What operations write

An upsert that succeeds has written its record at its time, and a removal of all records that
succeeds has left nothing (`Repository.written_of_upsert`, `Repository.tuples_of_clear`). Nothing is
assumed about the database but that its tables are in order: what a step has done is read off its
success (`Store.execute_eq_ok`), and what the statements of a kind of records leave in its table
when they go through is one law for each of them (`StampedRecord`).
-/

namespace AlertRegistry

open Table (Orderly Written)

/-! ## Steps that have gone through -/

namespace Store

variable {s s' : Store}

/-- A statement that has gone through has had its effect on what the connection sees. -/
theorem execute_eq_ok {statement : Statement} {n : Nat}
    (h : s.execute statement = (.ok n, s')) :
    ∃ e, statement s.view = .ok e ∧ e.count = n ∧ s'.view = e.database := by
  unfold execute at h
  unfold view
  cases ht : s.transaction with
  | none =>
    rw [ht] at h
    dsimp only at h ⊢
    split at h
    · cases h
    · split at h
      · cases h
      · next e he =>
        split at h
        · cases h
        · cases h
          exact ⟨e, he, rfl, by simp only⟩
  | deferred reads =>
    rw [ht] at h
    dsimp only at h ⊢
    split at h
    · cases h
    · split at h
      · cases h
      · next e he =>
        cases h
        exact ⟨e, he, rfl, rfl⟩
  | writing work waits =>
    rw [ht] at h
    dsimp only at h ⊢
    split at h
    · cases h
    · next e he =>
      cases h
      exact ⟨e, he, rfl, rfl⟩

/-- Who is let in sees what is committed. -/
theorem view_of_begin (h : s.begin = (.ok (), s')) : s'.view = s.committed := by
  rw [begin_ok_eq h]
  rfl

/-- What the connection sees is committed. -/
theorem committed_of_commitOrAbort (h : s.commitOrAbort = (.ok (), s')) :
    s'.committed = s.view := by
  unfold commitOrAbort commit at h
  unfold view
  cases ht : s.transaction with
  | none =>
    rw [ht] at h
    cases h
  | deferred reads =>
    rw [ht] at h
    cases h
    rfl
  | writing work waits =>
    rw [ht] at h
    dsimp only at h
    cases hr : s.others.read with
    | true =>
      rw [hr] at h
      cases h
    | false =>
      rw [hr] at h
      cases h
      rfl

/-- Without a transaction a reading leaves the store as it is. -/
theorem read_store {β : Type} (hs : s.transaction = .none) (f : Database → Except StoreError β) :
    (s.read f).2 = s := by
  unfold read
  rw [hs]
  dsimp only
  split <;> rfl

theorem view_of_idle (hs : s.transaction = .none) : s.view = s.committed := by
  unfold view
  rw [hs]

end Store

/-! ## Records with stamps -/

section

variable (α : Type) {ρ γ : Type} [Record α ρ γ]

/-- The tuples in which the records are committed. -/
def Store.tuples (s : Store) : List (Tuple γ) :=
  (Record.table α s.committed).tuples

end

/-- A kind of records whose statements leave stamps in their table. -/
class StampedRecord (α : Type) (ρ γ : outParam Type) [Layout γ] [Versioned γ] [Stamped γ]
    [Record α ρ γ] : Prop where
  /-- A row that was inserted was written. -/
  insert {db : Database} {now : Int} {r : ρ} {e : Effect} :
    Orderly (Record.table α db).tuples → Record.insert α now r db = .ok e →
    Written now (Record.key α r) (Record.table α db).tuples (Record.table α e.database).tuples
  /-- A row that has replaced another one was written. -/
  replace {db : Database} {now : Int} {r : ρ} {e : Effect} :
    Orderly (Record.table α db).tuples → Record.replace α now r db = .ok e → e.count ≠ 0 →
    Written now (Record.key α r) (Record.table α db).tuples (Record.table α e.database).tuples
  /-- What is beside a row is not in the table. -/
  writeBeside {db : Database} {write : ρ → Statement} {r : ρ} {e : Effect} :
    Record.writeBeside α = some write → write r db = .ok e →
    Record.table α e.database = Record.table α db
  /-- What is beside the rows is not in the table. -/
  clearBeside {db : Database} {statement : Statement} {e : Effect} :
    Record.clearBeside α = some statement → statement db = .ok e →
    Record.table α e.database = Record.table α db
  /-- Of the rows nothing is left. -/
  clear {db : Database} {e : Effect} : Record.clear α db = .ok e →
    (Record.table α e.database).tuples = []
  /-- A row that was read has the key and the stamps of its tuple. -/
  readRow {db : Database} {t : Tuple γ} {r : ρ} : Record.readRow α db t = .ok r →
    Table.keyOf t = .text (Record.key α r) ∧ Table.stampsOf? t = some (Record.stamps α r)

theorem Table.tuples_of_delete_all {γ : Type} {T T' : Table γ}
    (h : T.delete (fun _ => true) = .ok T') : T'.tuples = [] := by
  rw [delete_eq_ok_imp h]
  exact List.filter_eq_nil_iff.2 fun _ _ => Bool.false_ne_true

/-- Whatever was changed before the check of the references, the alerts are those that were there
then. -/
theorem Database.alerts_of_finish {db : Database} {count : Nat} {e : Effect}
    (h : db.finish count = .ok e) : e.database.alerts = db.alerts :=
  congrArg Database.alerts (database_of_finish h)

instance : StampedRecord Alert AlertRow AlertColumn where
  insert {db now r e} horderly h := by
    obtain ⟨T, hinsert, h⟩ := bind_eq_ok h
    show Written now r.id db.alerts.tuples e.database.alerts.tuples
    rw [Database.alerts_of_finish h]
    exact Table.written_of_insert r.isStamped_sheet horderly hinsert
  replace {db now r e} horderly h hcount := by
    obtain ⟨T, hupdate, h⟩ := bind_eq_ok h
    show Written now r.id db.alerts.tuples e.database.alerts.tuples
    rw [Database.count_of_finish h] at hcount
    rw [Database.alerts_of_finish h]
    exact Table.written_of_update r.isStamped_sheet horderly hupdate hcount
  writeBeside {db write r e} hw h := by
    cases hw
    unfold AlertRow.writeSide at h
    cases hs : r.side with
    | some side =>
      rw [hs] at h
      obtain ⟨U, _, h⟩ := bind_eq_ok h
      have halerts := Database.alerts_of_finish h
      exact halerts
    | none =>
      rw [hs] at h
      obtain ⟨U, _, h⟩ := bind_eq_ok h
      have halerts := Database.alerts_of_finish h
      exact halerts
  clearBeside {db statement e} hc h := by
    cases hc
    obtain ⟨U, _, h⟩ := bind_eq_ok h
    have halerts := Database.alerts_of_finish h
    exact halerts
  clear {db e} h := by
    obtain ⟨T, hdelete, h⟩ := bind_eq_ok h
    obtain ⟨U, _, h⟩ := bind_eq_ok h
    show e.database.alerts.tuples = []
    rw [Database.alerts_of_finish h]
    exact Table.tuples_of_delete_all hdelete
  readRow {db t r} h := by
    rw [AlertRow.eq_tuple_of_read h]
    exact ⟨rfl, rfl⟩

instance : StampedRecord Expression ExpressionRow ExpressionColumn where
  insert {db now r e} horderly h := by
    obtain ⟨T, hinsert, h⟩ := bind_eq_ok h
    cases h
    exact Table.written_of_insert r.isStamped_sheet horderly hinsert
  replace {db now r e} horderly h hcount := by
    obtain ⟨T, hupdate, h⟩ := bind_eq_ok h
    cases h
    exact Table.written_of_update r.isStamped_sheet horderly hupdate hcount
  writeBeside hw := by cases hw
  clearBeside hc := by cases hc
  clear {db e} h := by
    obtain ⟨T, hdelete, h⟩ := bind_eq_ok h
    cases h
    exact Table.tuples_of_delete_all hdelete
  readRow {db t r} h := by
    rw [ExpressionRow.eq_tuple_of_ofTuple h]
    exact ⟨rfl, rfl⟩

/-! ## Operations that have gone through -/

section

variable {α ρ γ : Type} [Layout γ] [Versioned γ] [Stamped γ] [Record α ρ γ] [StampedRecord α ρ γ]
  {s s' : Store} {now : Int}

/-- What is kept beside a row is not in its table. -/
theorem table_of_saveBeside {row : ρ} (h : saveBeside α row s = (.ok (), s')) :
    Record.table α s'.view = Record.table α s.view := by
  unfold saveBeside at h
  split at h
  · cases h
    rfl
  · next write hwrite =>
    split at h
    · next hexecute =>
      cases h
      obtain ⟨e, he, _, hview⟩ := Store.execute_eq_ok hexecute
      rw [hview]
      exact StampedRecord.writeBeside hwrite he
    · cases h

/-- A row that was saved was written. -/
theorem written_of_save (horderly : Orderly (Record.table α s.view).tuples) {row : ρ}
    (h : save α now row s = (.ok (), s')) :
    Written now (Record.key α row) (Record.table α s.view).tuples
      (Record.table α s'.view).tuples := by
  obtain ⟨n, s₁, hbeside, ⟨_, hexecute⟩ | ⟨_, hn, hexecute⟩⟩ := save_ok_cases h
  · obtain ⟨e, he, _, hview⟩ := Store.execute_eq_ok hexecute
    rw [table_of_saveBeside hbeside, hview]
    exact StampedRecord.insert horderly he
  · obtain ⟨e, he, hcount, hview⟩ := Store.execute_eq_ok hexecute
    rw [table_of_saveBeside hbeside, hview]
    exact StampedRecord.replace horderly he (hcount.symm ▸ hn)

namespace Repository

variable {r : Repository α}

/-- A record that was upserted was written. -/
theorem written_of_upsert [StoredRecord α ρ γ] [LawfulRecord α ρ γ]
    (horderly : Orderly (s.tuples α)) {a : α} {o : Outcome}
    (h : (r.upsert now a s).result = .ok o) :
    Written now (toString (Record.id a)) (s.tuples α) ((r.upsert now a s).store.tuples α) := by
  obtain ⟨_, _, row, s₁, version, s₂, hrow, hbegin, hread, hsave, _⟩ := upsert_ok_cases h
  obtain ⟨s₃, hsaved, hcommit⟩ := saveAndCommit_ok_cases hsave
  -- the transaction starts with what is committed, and reading the version leaves that
  have hview : s₂.view = s.committed := by
    have hsame := s₁.read_view (storedVersion α (Record.key α row))
    rw [hread] at hsame
    exact hsame.trans (Store.view_of_begin hbegin)
  have hwritten := written_of_save (hview ▸ horderly) hsaved
  rw [LawfulRecord.key_withVersion, LawfulRecord.key_toRow hrow, hview] at hwritten
  unfold Store.tuples
  rw [Store.committed_of_commitOrAbort hcommit]
  exact hwritten

/-- Of records that were removed nothing is left. -/
theorem tuples_of_clear {n : Nat} (h : (r.clear s).result = .ok n) :
    (r.clear s).store.tuples α = [] := by
  obtain ⟨_, _, s₁, _, s₂, s₃, _, _, hclear, hcommit⟩ := clear_ok_cases h
  obtain ⟨e, he, _, hview⟩ := Store.execute_eq_ok hclear
  unfold Store.tuples
  rw [Store.committed_of_commitOrAbort hcommit, hview]
  exact StampedRecord.clear he

end Repository

end

end AlertRegistry
