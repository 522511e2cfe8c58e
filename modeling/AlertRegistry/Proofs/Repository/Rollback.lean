import AlertRegistry.Alert.Record
import AlertRegistry.Expression.Record
import AlertRegistry.Proofs.Alert.Row
import AlertRegistry.Proofs.Repository.Steps

/-!
# Failed writes leave no trace

An upsert is up to four statements and a commit, and any of them may fail. Whatever fails, in
whatever state the repository and the store are, the tables are what they were: before the
transaction nothing is written, in it everything is written over the committed database
(`Store.WritesOver`), and every way out of it but the last drops it.

The laws are about all kinds of records at once; `failed_writes_leave_no_trace` is about the two
kinds that there are.
-/

namespace AlertRegistry

variable {α ρ γ : Type} [Record α ρ γ]

namespace Repository

/-- If a row cannot be saved and committed, the transaction is dropped. -/
theorem saveAndCommit_error_writesOver {db : Database} {s s' : Store} (h : s.WritesOver db)
    {now : Int} {row : ρ} {e : RepositoryError}
    (he : saveAndCommit α now row s = (.error e, s')) : s'.committed = db ∧ s'.view = db := by
  have hsaved := save_kept (α := α) (writesOver_keptBy db) h now row
  obtain ⟨_, hsave, rfl⟩ | ⟨_, _, hsave, hcommit, _⟩ := saveAndCommit_error_cases he
  · rw [hsave] at hsaved
    exact hsaved.abort
  · rw [hsave] at hsaved
    exact hsaved.commitOrAbort_error hcommit

/-! ## The operations -/

/-- Who is back at what was committed when the transaction began sees what was seen before it. -/
theorem sameTables_of_begin {s s₁ s' : Store} (hb : s.begin = (.ok (), s₁))
    (h : s'.committed = s.committed ∧ s'.view = s.committed) : s.SameTables s' :=
  ⟨h.1, h.2.trans (Store.begin_ok hb).1.symm⟩

section

variable [Layout γ]

/-- An upsert that fails, at whichever point, leaves the tables as they were. -/
theorem UpsertFailure.sameTables {now : Int} {a : α} {s s' : Store} {e : RepositoryError}
    (h : UpsertFailure now a s e s') : s.SameTables s' := by
  cases h with
  | record _ => exact .refl s
  | poisoned _ => exact .refl s
  | begin _ hb => exact Store.begin_error hb
  | version _ hb hr => exact sameTables_of_begin hb (Store.writesOver_of_read hb hr).abort
  | save _ hb hr hsave =>
    have hw := Store.writesOver_of_read hb hr
    exact sameTables_of_begin hb (saveAndCommit_error_writesOver hw hsave)

theorem upsert_error_sameTables (r : Repository α) (now : Int) (a : α) (s : Store)
    {e : RepositoryError} (he : (r.upsert now a s).result = .error e) :
    s.SameTables (r.upsert now a s).store := by
  by_cases ho : r.state = .opened
  · exact (upsert_error_cases ho he).sameTables
  · rw [upsert_store_of_not_opened ho]
    exact .refl s

/-- A record without row is refused for that reason before the store is looked at. -/
theorem upsert_of_toRow_error (r : Repository α) (hr : r.state = .opened) (now : Int) {a : α}
    {e : RecordError} (ha : (Record.toRow a : Except RecordError ρ) = .error e) (s : Store) :
    (r.upsert now a s).result = .error (.record (Record.id a) e)
      ∧ (r.upsert now a s).store = s := by
  unfold upsert whenOpen requireOpen
  rw [if_pos hr, ha]
  exact ⟨rfl, rfl⟩

end

/-- A removal of all records that fails, at whichever point, leaves the tables as they were. -/
theorem clear_error_sameTables (r : Repository α) (s : Store) {e : RepositoryError}
    (he : (r.clear s).result = .error e) : s.SameTables (r.clear s).store := by
  revert he
  unfold clear whenOpen
  cases r.requireOpen .clear with
  | error e' => exact fun _ => .refl s
  | ok =>
    dsimp only
    -- the mutex, `begin`, the statement beside the rows, the one on the rows, the commit
    unfold whenSound
    split
    · exact fun _ => .refl s
    · split
      · next hb => exact fun _ => Store.begin_error hb
      · next s₁ hb =>
        have hw := (Store.begin_ok hb).2
        have hbeside := executeIfAny_kept (α := α) (writesOver_keptBy _) hw
        split
        · next heq =>
          rw [heq] at hbeside
          exact fun _ => sameTables_of_begin hb hbeside.abort
        · next heq =>
          rw [heq] at hbeside
          have hclear := hbeside.execute (Record.clear α)
          split
          · next heq' =>
            rw [heq'] at hclear
            exact fun _ => sameTables_of_begin hb hclear.abort
          · next heq' =>
            rw [heq'] at hclear
            split
            · next hc => exact fun _ => sameTables_of_begin hb (hclear.commitOrAbort_error hc)
            · intro he
              cases he

/-! ## Both kinds of records -/

/-- Upserts and removals that fail leave the tables as they were, whatever the states of repository
and store, and an alert without row is refused by an open repository in every state of the store
alike. -/
theorem failed_writes_leave_no_trace (s : Store) (now : Int) :
    (∀ (r : Repository Alert) (a : Alert) (e : RepositoryError),
      (r.upsert now a s).result = .error e → s.SameTables (r.upsert now a s).store)
    ∧ (∀ (r : Repository Alert) (e : RepositoryError),
      (r.clear s).result = .error e → s.SameTables (r.clear s).store)
    ∧ (∀ (r : Repository Expression) (x : Expression) (e : RepositoryError),
      (r.upsert now x s).result = .error e → s.SameTables (r.upsert now x s).store)
    ∧ (∀ (r : Repository Expression) (e : RepositoryError),
      (r.clear s).result = .error e → s.SameTables (r.clear s).store)
    ∧ (∀ (r : Repository Alert) (a : Alert) (e : RecordError),
      r.state = .opened → AlertRow.ofAlert a = .error e →
        (r.upsert now a s).result = .error (.record a.id e)
          ∧ (r.upsert now a s).store = s) := by
  refine ⟨?_, ?_, ?_, ?_, ?_⟩
  · intro r a e he
    exact upsert_error_sameTables r now a s he
  · intro r e he
    exact clear_error_sameTables r s he
  · intro r x e he
    exact upsert_error_sameTables r now x s he
  · intro r e he
    exact clear_error_sameTables r s he
  · intro r a e hr ha
    exact upsert_of_toRow_error r hr now ha s

/-- A store that takes alerts but no side-records. -/
def sidelessStore : Store where
  committed := { sides := ({} : Table SideColumn).setRejection .insert (some "full") }

/-- An open repository of alerts. -/
def openAlerts : Repository Alert where
  identity := 0
  strategy := .generic
  state := .opened

/-- The last statement of an upsert fails after the alert itself was written, and the alert is gone
again. -/
theorem rejected_side_leaves_no_trace :
    (openAlerts.upsert 0 AlertRow.watchedAlert sidelessStore).result
        = .error (.conflict AlertRow.watchedAlert.id (.rejected (.change (.rejected "full"))))
      ∧ sidelessStore.SameTables
          (openAlerts.upsert 0 AlertRow.watchedAlert sidelessStore).store := by
  have hfails : (openAlerts.upsert 0 AlertRow.watchedAlert sidelessStore).result
      = .error (.conflict AlertRow.watchedAlert.id (.rejected (.change (.rejected "full")))) := by
    with_unfolding_all rfl
  exact ⟨hfails, (failed_writes_leave_no_trace sidelessStore 0).1 _ _ _ hfails⟩

end Repository

end AlertRegistry
