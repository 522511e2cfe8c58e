import AlertRegistry.Store.Basic

/-!
# Transactions

What the steps of a connection do to its committed database and to its view.

* Reading leaves both alone (`read_committed`, `read_view`).
* A connection that `begin` has let in writes over the database that was committed then
  (`WritesOver`): statements and reads keep it so, and whichever way the transaction is dropped, the
  connection is back at that database (`WritesOver.abort`, `WritesOver.commitOrAbort_error`).
* A `begin` that is refused is seen by nobody (`begin_error`).
* A connection that has the store to itself (`Alone`) reads what it sees, and a statement that
  succeeds changes nothing but that (`withView`).
-/

namespace AlertRegistry.Store

/-- Nobody can tell the two sides of a store apart by their tables: what is committed is the same,
and so is what the connection itself sees. -/
structure SameTables (s s' : Store) : Prop where
  /-- What others see. -/
  committed : s'.committed = s.committed
  /-- What the connection sees. -/
  view : s'.view = s.view

theorem SameTables.refl (s : Store) : SameTables s s := ⟨rfl, rfl⟩

/-- The connection has the right to write, and `db` is what is committed. -/
structure WritesOver (db : Database) (s : Store) : Prop where
  /-- The committed database. -/
  committed : s.committed = db
  /-- The right to write. -/
  isWriting : s.transaction.isWriting = true

/-! ## Reading -/

variable {α : Type}

theorem read_committed (s : Store) (f : Database → Except StoreError α) :
    (s.read f).2.committed = s.committed := by
  unfold read
  split
  · split <;> rfl
  · split <;> rfl
  · rfl
  · rfl

theorem read_view (s : Store) (f : Database → Except StoreError α) :
    (s.read f).2.view = s.view := by
  unfold read
  split
  · split <;> rfl
  · next h =>
    split
    · rfl
    · simp only [view, h]
  · rfl
  · rfl

/-- Unless somebody waits for the readers to end, what the connection sees is read. -/
theorem read_result {s : Store} (h : s.others.wait = false) (f : Database → Except StoreError α) :
    (s.read f).1 = f s.view := by
  unfold read view
  rw [h]
  cases s.transaction with
  | none => rfl
  | deferred reads => cases reads <;> rfl
  | writing work waits => rfl

/-- What was read was read from what the connection sees. -/
theorem read_eq_ok {s s' : Store} {f : Database → Except StoreError α} {a : α}
    (h : s.read f = (.ok a, s')) : f s.view = .ok a := by
  unfold read at h
  unfold view
  split at h
  · next ht =>
    rw [ht]
    split at h
    · cases h
    · exact congrArg Prod.fst h
  · next ht =>
    rw [ht]
    split at h
    · cases h
    · exact congrArg Prod.fst h
  · next ht =>
    rw [ht]
    exact congrArg Prod.fst h
  · next ht =>
    rw [ht]
    exact congrArg Prod.fst h

/-! ## Writing over a database -/

namespace WritesOver

variable {db : Database} {s : Store}

theorem exists_work (h : WritesOver db s) : ∃ work waits, s.transaction = .writing work waits := by
  have hw := h.isWriting
  cases ht : s.transaction with
  | none => rw [ht] at hw; cases hw
  | deferred reads => rw [ht] at hw; cases hw
  | writing work waits => exact ⟨work, waits, rfl⟩

theorem read (h : WritesOver db s) (f : Database → Except StoreError α) :
    WritesOver db (s.read f).2 := by
  obtain ⟨work, waits, ht⟩ := h.exists_work
  unfold Store.read
  rw [ht]
  exact h

theorem execute (h : WritesOver db s) (statement : Statement) :
    WritesOver db (s.execute statement).2 := by
  obtain ⟨work, waits, ht⟩ := h.exists_work
  unfold Store.execute
  rw [ht]
  cases hst : statement work with
  | error e => simpa only [hst] using h
  | ok e =>
    simp only [hst]
    exact ⟨h.committed, rfl⟩

/-- A dropped transaction leaves nothing but the database that it was started on. -/
theorem abort (h : WritesOver db s) : s.abort.committed = db ∧ s.abort.view = db :=
  ⟨h.committed, h.committed⟩

/-- So does a commit that is refused. -/
theorem commitOrAbort_error (h : WritesOver db s) {e : StoreError} {s' : Store}
    (hc : s.commitOrAbort = (.error e, s')) : s'.committed = db ∧ s'.view = db := by
  obtain ⟨work, waits, ht⟩ := h.exists_work
  unfold Store.commitOrAbort commit at hc
  rw [ht] at hc
  cases hr : s.others.read with
  | true =>
    simp only [hr, if_true, Prod.mk.injEq] at hc
    obtain ⟨-, rfl⟩ := hc
    exact ⟨h.committed, h.committed⟩
  | false =>
    rw [hr] at hc
    cases hc

end WritesOver

/-! ## Beginning -/

/-- Who is let in writes over what he saw. -/
theorem begin_ok {s s' : Store} (h : s.begin = (.ok (), s')) :
    s.view = s.committed ∧ WritesOver s.committed s' := by
  unfold begin at h
  split at h
  · cases h
  · split at h
    · next ht =>
      cases h
      exact ⟨by simp only [view, ht], rfl, rfl⟩
    · cases h
    · cases h

/-- Who is not let in sees the same as before, also if he only gave up his right to go on reading
an old database. -/
theorem begin_error {s s' : Store} {e : StoreError} (h : s.begin = (.error e, s')) :
    SameTables s s' := by
  unfold begin at h
  split at h
  · cases h
    exact .refl s
  · split at h
    · cases h
    · -- an old database may be read on, but not be written over
      next ht =>
      cases h
      exact ⟨rfl, by simp only [view, ht]⟩
    · cases h
      exact .refl s

/-! ## A store to oneself -/

/-- No other connection holds a lock, this one is sound and, if it has begun, may write. -/
structure Alone (s : Store) : Prop where
  /-- No lock stands in the way. -/
  others : s.others = {}
  /-- The transaction is one that `begin` started, if there is any. -/
  transaction : ∀ reads, s.transaction ≠ .deferred reads
  /-- The connection can be used. -/
  sound : s.poisoned = false

/-- The store with another database in sight of the connection. -/
def withView (s : Store) (db : Database) : Store :=
  match s.transaction with
  | .writing _ waits => { s with transaction := .writing db waits }
  | _ => { s with committed := db }

/-- Nothing is begun: the connection sees what is committed. -/
structure Idle (s : Store) : Prop extends s.Alone where
  /-- There is no transaction. -/
  idle : s.transaction = .none

namespace Alone

variable {s : Store}

theorem withView (h : s.Alone) (db : Database) : (s.withView db).Alone := by
  unfold Store.withView
  split
  · exact ⟨h.others, fun _ => Transaction.noConfusion, h.sound⟩
  · exact ⟨h.others, h.transaction, h.sound⟩

theorem view_withView (h : s.Alone) (db : Database) : (s.withView db).view = db := by
  unfold Store.withView
  split
  · rfl
  · next hw =>
    cases ht : s.transaction with
    | none => simp only [view]
    | deferred reads => exact absurd ht (h.transaction reads)
    | writing work waits => exact absurd ht (hw work waits)

theorem withView_withView (h : s.Alone) (db db' : Database) :
    (s.withView db).withView db' = s.withView db' := by
  unfold Store.withView
  cases ht : s.transaction with
  | none => simp only
  | deferred reads => exact absurd ht (h.transaction reads)
  | writing work waits => rfl

/-- What the connection sees anyway makes no difference. -/
theorem withView_view (h : s.Alone) : s.withView s.view = s := by
  obtain ⟨committed, transaction, others, poisoned⟩ := s
  cases transaction with
  | none => rfl
  | deferred reads => exact absurd rfl (h.transaction reads)
  | writing work waits => rfl

/-- Nothing stands in the way of reading. -/
theorem read_eq (h : s.Alone) (f : Database → Except StoreError α) :
    s.read f = (f s.view, s) := by
  unfold Store.read view
  cases ht : s.transaction with
  | none => simp only [h.others, Bool.false_eq_true, if_false]
  | deferred reads => exact absurd ht (h.transaction reads)
  | writing work waits => rfl

/-- A statement that succeeds changes what the connection sees. -/
theorem execute_ok (h : s.Alone) {statement : Statement} {e : Effect}
    (he : statement s.view = .ok e) :
    s.execute statement = (.ok e.count, s.withView e.database) := by
  unfold Store.execute Store.withView
  unfold view at he
  cases ht : s.transaction with
  | none =>
    rw [ht] at he
    simp only [h.others, Bool.false_eq_true, if_false, he]
  | deferred reads => exact absurd ht (h.transaction reads)
  | writing work waits =>
    rw [ht] at he
    simp only [he]

/-- A statement that fails changes nothing. -/
theorem execute_error (h : s.Alone) {statement : Statement} {e : ChangeError}
    (he : statement s.view = .error e) : s.execute statement = (.error (.change e), s) := by
  unfold Store.execute
  unfold view at he
  cases ht : s.transaction with
  | none =>
    rw [ht] at he
    simp only [h.others, Bool.false_eq_true, if_false, he]
  | deferred reads => exact absurd ht (h.transaction reads)
  | writing work waits =>
    rw [ht] at he
    simp only [he]

end Alone

namespace Idle

variable {s : Store}

theorem view_eq (h : s.Idle) : s.view = s.committed := by
  simp only [view, h.idle]

/-- Whoever has the store to himself is let in. -/
theorem begin_eq (h : s.Idle) :
    s.begin = (.ok (), { s with transaction := .writing s.committed false }) := by
  unfold begin
  simp only [h.others, h.idle, Bool.false_eq_true, if_false]

theorem begun (h : s.Idle) :
    ({ s with transaction := .writing s.committed false } : Store).Alone :=
  ⟨h.others, fun _ => Transaction.noConfusion, h.sound⟩

/-- What was done in a transaction is committed at its end. -/
theorem commitOrAbort_eq (h : s.Idle) (db : Database) (waits : Bool) :
    ({ s with transaction := .writing db waits } : Store).commitOrAbort
      = (.ok (), s.withView db) := by
  unfold commitOrAbort commit Store.withView
  simp only [h.others, h.idle, Bool.false_eq_true, if_false]

theorem withView (h : s.Idle) (db : Database) : (s.withView db).Idle where
  toAlone := h.toAlone.withView db
  idle := by
    unfold Store.withView
    split
    · next ht =>
      rw [h.idle] at ht
      cases ht
    · exact h.idle

end Idle

end AlertRegistry.Store
