import AlertRegistry.Proofs.Store
import AlertRegistry.Repository.Basic

/-!
# The steps of an operation

An upsert and a removal of all records take one path to success: the repository is open, the
connection is sound, it is let in at `begin`, no statement fails, and nobody reads when the
transaction is committed (`upsert_ok_cases`, `clear_ok_cases`). Whatever happens on the way, no
transaction is left behind (`upsert_transaction`, `clear_transaction`).

A condition on the connection that the statements on a kind of records keep (`StatementOf`) is kept
while a row is saved (`save_kept`).
-/

namespace AlertRegistry

variable {α ρ γ : Type} [Record α ρ γ]

/-- The statements on a kind of records. -/
inductive StatementOf (α : Type) {ρ γ : Type} [Record α ρ γ] : Statement → Prop
  /-- A row is appended. -/
  | insert (now : Int) (r : ρ) : StatementOf α (Record.insert α now r)
  /-- A row is replaced. -/
  | replace (now : Int) (r : ρ) : StatementOf α (Record.replace α now r)
  /-- What is beside a row is written. -/
  | writeBeside {write : ρ → Statement} (h : Record.writeBeside α = some write) (r : ρ) :
    StatementOf α (write r)
  /-- What is beside the rows is removed. -/
  | clearBeside {statement : Statement} (h : Record.clearBeside α = some statement) :
    StatementOf α statement
  /-- The rows are removed. -/
  | clear : StatementOf α (Record.clear α)

/-- The statements on a kind of records keep the condition. -/
def KeptBy (α : Type) {ρ γ : Type} [Record α ρ γ] (Q : Store → Prop) : Prop :=
  ∀ s statement, StatementOf α statement → Q s → Q (s.execute statement).2

/-! ## Saving -/

section

variable {Q : Store → Prop} {s : Store}

theorem saveBeside_kept (hQ : KeptBy α Q) (h : Q s) (row : ρ) : Q (saveBeside α row s).2 := by
  unfold saveBeside
  split
  · exact h
  · next write hwrite =>
    have hx := hQ s _ (.writeBeside hwrite row) h
    split
    all_goals
      next heq =>
        rw [heq] at hx
        exact hx

/-- What the statements keep is kept while a row is saved, however far that gets. -/
theorem save_kept (hQ : KeptBy α Q) (h : Q s) (now : Int) (row : ρ) : Q (save α now row s).2 := by
  unfold save
  split
  · have hx := hQ s _ (.insert now row) h
    split
    · next heq =>
      rw [heq] at hx
      exact saveBeside_kept hQ hx row
    · next heq =>
      rw [heq] at hx
      exact hx
  · have hx := hQ s _ (.replace now row) h
    split
    · next heq =>
      rw [heq] at hx
      exact hx
    · next heq =>
      rw [heq] at hx
      exact saveBeside_kept hQ hx row
    · next heq =>
      rw [heq] at hx
      exact hx

/-- What is beside a row is not written only if the store fails. -/
theorem saveBeside_error {row : ρ} {s' : Store} {e : RepositoryError}
    (h : saveBeside α row s = (.error e, s')) : ∃ x, e = .access (.store x) := by
  unfold saveBeside at h
  split at h
  · cases h
  · split at h
    · cases h
    · cases h
      exact ⟨_, rfl⟩

/-- A row is not saved only if the store fails or its version is not the stored one. -/
theorem save_error {now : Int} {row : ρ} {s' : Store} {e : RepositoryError}
    (h : save α now row s = (.error e, s')) :
    e = versionError α row ∨ ∃ x, e = .access (.store x) := by
  unfold save at h
  split at h
  · split at h
    · exact .inr (saveBeside_error h)
    · cases h
      exact .inr ⟨_, rfl⟩
  · split at h
    · cases h
      exact .inl rfl
    · exact .inr (saveBeside_error h)
    · cases h
      exact .inr ⟨_, rfl⟩

/-- A row that is saved is inserted or replaces some rows, before what is beside it is written. -/
theorem save_ok_cases {now : Int} {row : ρ} {s' : Store}
    (h : save α now row s = (.ok (), s')) :
    ∃ n s₁, saveBeside α row s₁ = (.ok (), s')
      ∧ (Record.version α row = 0 ∧ s.execute (Record.insert α now row) = (.ok n, s₁)
        ∨ Record.version α row ≠ 0 ∧ n ≠ 0
          ∧ s.execute (Record.replace α now row) = (.ok n, s₁)) := by
  unfold save at h
  split at h
  · next hv =>
    split at h
    · next n s₁ hexecute => exact ⟨n, s₁, h, .inl ⟨hv, hexecute⟩⟩
    · cases h
  · next hv =>
    split at h
    · cases h
    · next n s₁ hn hexecute => exact ⟨n, s₁, h, .inr ⟨hv, hn, hexecute⟩⟩
    · cases h

theorem executeIfAny_kept (hQ : KeptBy α Q) (h : Q s) :
    Q (Repository.executeIfAny (Record.clearBeside α) s).2 := by
  unfold Repository.executeIfAny
  split
  · exact h
  · next statement hstatement => exact hQ s _ (.clearBeside hstatement) h

end

/-! ## Locks -/

namespace Store

variable {s s' : Store}

theorem execute_others (s : Store) (statement : Statement) :
    (s.execute statement).2.others = s.others := by
  unfold execute
  split
  · split
    · rfl
    · split
      · rfl
      · split <;> rfl
  · split
    · rfl
    · split <;> rfl
  · split <;> rfl

theorem read_others {β : Type} (s : Store) (f : Database → Except StoreError β) :
    (s.read f).2.others = s.others := by
  unfold read
  split
  · split <;> rfl
  · split <;> rfl
  · rfl
  · rfl

theorem begin_others (s : Store) : s.begin.2.others = s.others := by
  unfold begin
  split
  · rfl
  · split <;> rfl

/-- Who is let in starts on what is committed. -/
theorem begin_ok_eq (h : s.begin = (.ok (), s')) :
    s' = { s with transaction := .writing s.committed false } := by
  unfold begin at h
  split at h
  · cases h
  · split at h
    · cases h
      rfl
    · cases h
    · cases h

/-- Who is not let in finds another one writing, or himself in a transaction. -/
theorem begin_error_cases {e : StoreError} (h : s.begin = (.error e, s')) :
    e = .locked ∨ e = .nested := by
  unfold begin at h
  split at h
  · cases h
    exact .inl rfl
  · split at h
    · cases h
    · cases h
      exact .inr rfl
    · cases h
      exact .inr rfl

/-- Who writes is only kept from committing by another one who reads. -/
theorem commitOrAbort_error_cases {db : Database} (hw : s.WritesOver db) {e : StoreError}
    (h : s.commitOrAbort = (.error e, s')) : e = .locked := by
  obtain ⟨work, waits, ht⟩ := hw.exists_work
  unfold commitOrAbort commit at h
  rw [ht] at h
  cases hr : s.others.read with
  | false =>
    rw [hr] at h
    cases h
  | true =>
    rw [hr] at h
    cases h
    rfl

/-- Who is let in and reads writes over what he saw. -/
theorem writesOver_of_read {s₁ s₂ : Store} {β : Type} {f : Database → Except StoreError β}
    {x : Except StoreError β} (hb : s.begin = (.ok (), s₁)) (hr : s₁.read f = (x, s₂)) :
    s₂.WritesOver s.committed := by
  have h := (begin_ok hb).2.read f
  rwa [hr] at h

/-- Nobody is let in while another one writes. -/
theorem write_of_begin_ok (h : s.begin = (.ok (), s')) : s.others.write = false := by
  unfold begin at h
  split at h
  · cases h
  · next hw => simpa using hw

/-- Who writes does not get to commit while another one reads. -/
theorem read_of_commitOrAbort_ok {db : Database} (hw : s.WritesOver db)
    (h : s.commitOrAbort = (.ok (), s')) : s.others.read = false := by
  obtain ⟨work, waits, ht⟩ := hw.exists_work
  unfold commitOrAbort commit at h
  rw [ht] at h
  cases hr : s.others.read with
  | false => rfl
  | true =>
    rw [hr] at h
    cases h

/-- After a commit, refused or not, there is no transaction. -/
theorem commitOrAbort_transaction (s : Store) : s.commitOrAbort.2.transaction = .none := by
  unfold commitOrAbort commit
  cases s.transaction with
  | none => rfl
  | deferred reads => rfl
  | writing work waits =>
    dsimp only
    cases s.others.read <;> rfl

/-- Who is not let in has begun nothing. -/
theorem begin_error_eq (hs : s.transaction = .none) {e : StoreError}
    (h : s.begin = (.error e, s')) : s' = s := by
  unfold begin at h
  rw [hs] at h
  split at h
  · cases h
    rfl
  · cases h

end Store

theorem writesOver_keptBy (db : Database) : KeptBy α (·.WritesOver db) :=
  fun _ statement _ h => h.execute statement

theorem others_keptBy (l : Locks) : KeptBy α (·.others = l) :=
  fun s statement _ h => (s.execute_others statement).trans h

/-! ## Operations -/

namespace Repository

variable {s : Store}

theorem saveAndCommit_transaction (now : Int) (row : ρ) (s : Store) :
    (saveAndCommit α now row s).2.transaction = .none := by
  unfold saveAndCommit
  split
  · rfl
  · next s' _ =>
    have hcommit := s'.commitOrAbort_transaction
    split
    all_goals
      next heq =>
        rw [heq] at hcommit
        exact hcommit

theorem saveAndCommit_ok_cases {s' : Store} {now : Int} {row : ρ}
    (h : saveAndCommit α now row s = (.ok (), s')) :
    ∃ s₁, save α now row s = (.ok (), s₁) ∧ s₁.commitOrAbort = (.ok (), s') := by
  unfold saveAndCommit at h
  split at h
  · cases h
  · next s₁ hsave =>
    refine ⟨s₁, hsave, ?_⟩
    split at h
    · cases h
    · next hcommit =>
      cases h
      exact hcommit

/-- Either the row is not saved, or the commit is refused. -/
theorem saveAndCommit_error_cases {s' : Store} {now : Int} {row : ρ} {e : RepositoryError}
    (h : saveAndCommit α now row s = (.error e, s')) :
    (∃ s₁, save α now row s = (.error e, s₁) ∧ s' = s₁.abort)
      ∨ ∃ s₁ x, save α now row s = (.ok (), s₁) ∧ s₁.commitOrAbort = (.error x, s')
        ∧ e = .access (.store x) := by
  unfold saveAndCommit at h
  split at h
  · next s₁ hsave =>
    cases h
    exact .inl ⟨s₁, hsave, rfl⟩
  · next s₁ hsave =>
    split at h
    · next hcommit =>
      cases h
      exact .inr ⟨s₁, _, hsave, hcommit, rfl⟩
    · cases h

theorem saveAndCommit_error {s' : Store} {now : Int} {row : ρ} {e : RepositoryError}
    (h : saveAndCommit α now row s = (.error e, s')) :
    e = versionError α row ∨ ∃ x, e = .access (.store x) := by
  obtain ⟨_, hsave, _⟩ | ⟨_, x, _, _, rfl⟩ := saveAndCommit_error_cases h
  · exact save_error hsave
  · exact .inr ⟨x, rfl⟩

theorem requireOpen_eq_ok {r : Repository α} {operation : Operation}
    (h : r.requireOpen operation = .ok ()) : r.state = .opened := by
  unfold requireOpen at h
  split at h
  · next hs => exact hs
  · cases h

section

variable [Layout γ]

/-- How an open repository fails to upsert a record: with which error, and which store it leaves. -/
inductive UpsertFailure (now : Int) (a : α) (s : Store) : RepositoryError → Store → Prop
  /-- The record has no row. -/
  | record {e : RecordError} (ha : (Record.toRow a : Except RecordError ρ) = .error e) :
    UpsertFailure now a s (.record (Record.id a) e) s
  /-- The connection cannot be used. -/
  | poisoned (hs : s.poisoned = true) : UpsertFailure now a s (.access .poisoned) s
  /-- The connection is not let in. -/
  | begin {row : ρ} {e : StoreError} {s₁ : Store} (ha : Record.toRow a = .ok row)
    (hb : s.begin = (.error e, s₁)) : UpsertFailure now a s (.access (.store e)) s₁
  /-- The stored version cannot be read. -/
  | version {row : ρ} {e : StoreError} {s₁ s₂ : Store} (ha : Record.toRow a = .ok row)
    (hb : s.begin = (.ok (), s₁))
    (hr : s₁.read (storedVersion α (Record.key α row)) = (.error e, s₂)) :
    UpsertFailure now a s (.access (.store e)) s₂.abort
  /-- The row is not saved, or the commit is refused. -/
  | save {row : ρ} {version : Option Int} {e : RepositoryError} {s₁ s₂ s₃ : Store}
    (ha : Record.toRow a = .ok row) (hb : s.begin = (.ok (), s₁))
    (hr : s₁.read (storedVersion α (Record.key α row)) = (.ok version, s₂))
    (hsave : saveAndCommit α now (Record.withVersion α row (version.getD 0)) s₂ = (.error e, s₃)) :
    UpsertFailure now a s (e.asConflict (Record.id a)) s₃

theorem upsert_error_cases {r : Repository α} (ho : r.state = .opened) {now : Int} {a : α}
    {e : RepositoryError} (h : (r.upsert now a s).result = .error e) :
    UpsertFailure now a s e (r.upsert now a s).store := by
  revert h
  unfold upsert whenOpen requireOpen
  rw [if_pos ho]
  dsimp only
  cases ha : (Record.toRow a : Except RecordError ρ) with
  | error e' =>
    intro h
    cases h
    exact .record ha
  | ok row =>
    dsimp only
    unfold whenSound
    split
    · next hs =>
      intro h
      cases h
      exact .poisoned hs
    · split
      · next hb =>
        intro h
        cases h
        exact .begin ha hb
      · next hb =>
        split
        · next hr =>
          intro h
          cases h
          exact .version ha hb hr
        · next hr =>
          split
          · next hsave =>
            intro h
            cases h
            exact .save ha hb hr hsave
          · exact nofun

/-- A closed repository leaves the store alone. -/
theorem upsert_store_of_not_opened {r : Repository α} (ho : r.state ≠ .opened) (now : Int) (a : α)
    (s : Store) : (r.upsert now a s).store = s := by
  unfold upsert whenOpen requireOpen
  rw [if_neg ho]

/-- What has happened if an upsert succeeds. -/
theorem upsert_ok_cases {r : Repository α} {now : Int} {a : α} {o : Outcome}
    (h : (r.upsert now a s).result = .ok o) :
    r.state = .opened ∧ s.poisoned = false ∧ ∃ row s₁ version s₂,
      Record.toRow a = .ok row ∧ s.begin = (.ok (), s₁)
      ∧ s₁.read (storedVersion α (Record.key α row)) = (.ok version, s₂)
      ∧ saveAndCommit α now (Record.withVersion α row (version.getD 0)) s₂
        = (.ok (), (r.upsert now a s).store)
      ∧ o = if version.isSome then .updated else .created := by
  revert h
  unfold upsert whenOpen
  cases ho : r.requireOpen .upsert with
  | error e => exact nofun
  | ok =>
    dsimp only
    cases (Record.toRow a : Except RecordError ρ) with
    | error e => exact nofun
    | ok row =>
      dsimp only
      unfold whenSound
      split
      · exact nofun
      · next hsound =>
        split
        · exact nofun
        · next s₁ hb =>
          split
          · exact nofun
          · next version s₂ hr =>
            split
            · exact nofun
            · next hsave =>
              intro h
              cases h
              exact ⟨requireOpen_eq_ok ho, by simpa using hsound, row, s₁, version, s₂, rfl, hb, hr,
                hsave, rfl⟩

/-- No lock stands in the way of an upsert that succeeds. -/
theorem upsert_ok_unlocked {r : Repository α} {now : Int} {a : α} {o : Outcome}
    (h : (r.upsert now a s).result = .ok o) :
    s.others.write = false ∧ s.others.read = false := by
  obtain ⟨_, _, row, s₁, version, s₂, _, hb, hr, hsave, _⟩ := upsert_ok_cases h
  obtain ⟨s₃, hs₃, hcommit⟩ := saveAndCommit_ok_cases hsave
  have ho₁ : s₁.others = s.others := by
    have := s.begin_others
    rwa [hb] at this
  -- reading and saving keep the right to write, and the locks of the others
  have h₂ := Store.writesOver_of_read hb hr
  have ho₂ := s₁.read_others (storedVersion α (Record.key α row))
  rw [hr] at ho₂
  have h₃ := save_kept (α := α) (writesOver_keptBy s.committed) h₂ now
    (Record.withVersion α row (version.getD 0))
  have ho₃ := save_kept (α := α) (others_keptBy s.others) (ho₂.trans ho₁) now
    (Record.withVersion α row (version.getD 0))
  rw [hs₃] at h₃ ho₃
  refine ⟨Store.write_of_begin_ok hb, ?_⟩
  rw [← ho₃]
  exact Store.read_of_commitOrAbort_ok h₃ hcommit

/-- An upsert leaves no transaction behind. -/
theorem upsert_transaction (hs : s.transaction = .none) (r : Repository α) (now : Int) (a : α) :
    (r.upsert now a s).store.transaction = .none := by
  unfold upsert whenOpen
  cases r.requireOpen .upsert with
  | error e => exact hs
  | ok =>
    dsimp only
    cases (Record.toRow a : Except RecordError ρ) with
    | error e => exact hs
    | ok row =>
      dsimp only
      unfold whenSound
      split
      · exact hs
      · split
        · next hb => exact (Store.begin_error_eq hs hb).symm ▸ hs
        · split
          · rfl
          · next version s₂ _ =>
            have hsave := saveAndCommit_transaction (α := α) now
              (Record.withVersion α row (version.getD 0)) s₂
            split
            all_goals
              next heq =>
                rw [heq] at hsave
                exact hsave

end

/-- What has happened if all records are removed. -/
theorem clear_ok_cases {r : Repository α} {n : Nat} (h : (r.clear s).result = .ok n) :
    r.state = .opened ∧ s.poisoned = false ∧ ∃ s₁ beside s₂ s₃,
      s.begin = (.ok (), s₁) ∧ executeIfAny (Record.clearBeside α) s₁ = (.ok beside, s₂)
      ∧ s₂.execute (Record.clear α) = (.ok n, s₃)
      ∧ s₃.commitOrAbort = (.ok (), (r.clear s).store) := by
  revert h
  unfold clear whenOpen
  cases ho : r.requireOpen .clear with
  | error e => exact nofun
  | ok =>
    dsimp only
    unfold whenSound
    split
    · exact nofun
    · next hsound =>
      split
      · exact nofun
      · next s₁ hb =>
        split
        · exact nofun
        · next beside s₂ hbeside =>
          split
          · exact nofun
          · next removed s₃ hclear =>
            split
            · exact nofun
            · next hcommit =>
              intro h
              cases h
              exact ⟨requireOpen_eq_ok ho, by simpa using hsound, s₁, beside, s₂, s₃, hb, hbeside,
                hclear, hcommit⟩

/-- No lock stands in the way of a removal that succeeds. -/
theorem clear_ok_unlocked {r : Repository α} {n : Nat} (h : (r.clear s).result = .ok n) :
    s.others.write = false ∧ s.others.read = false := by
  obtain ⟨_, _, s₁, _, s₂, s₃, hb, hs₂, hs₃, hcommit⟩ := clear_ok_cases h
  replace hs₂ : _ = s₂ := congrArg Prod.snd hs₂
  replace hs₃ : _ = s₃ := congrArg Prod.snd hs₃
  have h₁ := (Store.begin_ok hb).2
  have ho₁ : s₁.others = s.others := by
    have := s.begin_others
    rwa [hb] at this
  have h₂ := executeIfAny_kept (α := α) (writesOver_keptBy s.committed) h₁
  have ho₂ := executeIfAny_kept (α := α) (others_keptBy s.others) ho₁
  have h₃ := h₂.execute (Record.clear α)
  have ho₃ := (s₂.execute_others (Record.clear α)).trans (hs₂ ▸ ho₂)
  rw [hs₂, hs₃] at h₃
  rw [hs₃] at ho₃
  refine ⟨Store.write_of_begin_ok hb, ?_⟩
  rw [← ho₃]
  exact Store.read_of_commitOrAbort_ok h₃ hcommit

theorem clear_transaction (hs : s.transaction = .none) (r : Repository α) :
    (r.clear s).store.transaction = .none := by
  unfold clear whenOpen
  cases r.requireOpen .clear with
  | error e => exact hs
  | ok =>
    dsimp only
    unfold whenSound
    split
    · exact hs
    · split
      · next hb => exact (Store.begin_error_eq hs hb).symm ▸ hs
      · split
        · rfl
        · split
          · rfl
          · next s₃ _ =>
            have hcommit := s₃.commitOrAbort_transaction
            split
            all_goals
              next heq =>
                rw [heq] at hcommit
                exact hcommit

end Repository

end AlertRegistry
