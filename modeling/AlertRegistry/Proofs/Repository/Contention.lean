import AlertRegistry.Proofs.Repository.Errands
import AlertRegistry.Proofs.Repository.Lockstep
import AlertRegistry.Proofs.Schema

/-!
# Contention

While another connection holds a lock the store may fail at any point of an upsert, and what is told
of it depends on the point (`Stage`): an error from before the first write is told as it is, and
only a later one as a conflict of the record (`Repository.tellsStore`). So the two sorts of lock are
told differently. Whoever writes keeps others from getting in, which is no conflict. Whoever reads
only keeps them from committing, which is one.
-/

namespace AlertRegistry

open StoredRecord (Keeps Admits)

variable {α ρ γ : Type} [Record α ρ γ]

/-! ## Stages -/

/-- How far an upsert has got. -/
inductive Stage where
  /-- It waits to be let in, or reads the stored version. -/
  | entry
  /-- It saves its row, or commits. -/
  | writing

/-- What a repository tells of an error of the store. -/
def Stage.tell (id : Uuid) (x : StoreError) : Stage → RepositoryError
  | entry => .access (.store x)
  | writing => .conflict id (.rejected x)

/-- The store fails while a row is upserted. -/
inductive StoreFails (α : Type) {ρ γ : Type} [Layout γ] [Record α ρ γ] (now : Int) (row : ρ)
    (s : Store) : Stage → StoreError → Prop
  /-- The connection is not let in. -/
  | begin {x : StoreError} {s₁ : Store} (hb : s.begin = (.error x, s₁)) :
    StoreFails α now row s .entry x
  /-- The stored version cannot be read. -/
  | version {x : StoreError} {s₁ s₂ : Store} (hb : s.begin = (.ok (), s₁))
    (hr : s₁.read (storedVersion α (Record.key α row)) = (.error x, s₂)) :
    StoreFails α now row s .entry x
  /-- The row is not saved, or the commit is refused. -/
  | save {version : Option Int} {x : StoreError} {s₁ s₂ s₃ : Store} (hb : s.begin = (.ok (), s₁))
    (hr : s₁.read (storedVersion α (Record.key α row)) = (.ok version, s₂))
    (hsave : Repository.saveAndCommit α now (Record.withVersion α row (version.getD 0)) s₂
      = (.error (.access (.store x)), s₃)) : StoreFails α now row s .writing x

/-- The row of a record has an identifier, so that its version can be told to be the wrong one. -/
theorem versionError_of_toRow [Layout γ] [StoredRecord α ρ γ] [LawfulRecord α ρ γ] {a : α}
    {row : ρ} (ha : Record.toRow a = .ok row) (version : Int) :
    versionError α (Record.withVersion α row version)
      = .conflict (Record.id a) (.version version) := by
  unfold versionError
  rw [LawfulRecord.key_withVersion, LawfulRecord.version_withVersion, LawfulRecord.key_toRow ha,
    Uuid.ofString?_toString]

/-! ## What is told -/

namespace Repository

section

variable [Layout γ] {r : Repository α} {now : Int} {a : α} {row : ρ} {s : Store}

/-- What the store fails with is told according to the stage. -/
theorem upsert_of_storeFails (ho : r.state = .opened) (hs : s.poisoned = false)
    (ha : Record.toRow a = .ok row) {stage : Stage} {x : StoreError}
    (h : StoreFails α now row s stage x) :
    (r.upsert now a s).result = .error (stage.tell (Record.id a) x) := by
  unfold upsert
  rw [whenOpen_of_opened ho]
  dsimp only
  rw [ha]
  dsimp only
  rw [whenSound_of_sound hs]
  cases h with
  | begin hb =>
    rw [hb]
    rfl
  | version hb hr =>
    rw [hb]
    dsimp only
    rw [hr]
    rfl
  | save hb hr hsave =>
    rw [hb]
    dsimp only
    rw [hr]
    dsimp only
    rw [hsave]
    rfl

/-- Nothing else is told of the store, and nothing is wrong but the store or the version. -/
theorem UpsertFailure.exists_stage [StoredRecord α ρ γ] [LawfulRecord α ρ γ]
    {e : RepositoryError} {s' : Store} (hs : s.poisoned = false) (ha : Record.toRow a = .ok row)
    (h : UpsertFailure now a s e s') :
    (∃ stage x, StoreFails α now row s stage x ∧ e = stage.tell (Record.id a) x)
      ∨ ∃ version, e = .conflict (Record.id a) (.version version) := by
  cases h with
  | record ha' => cases ha.symm.trans ha'
  | poisoned hs' => cases hs.symm.trans hs'
  | begin _ hb => exact .inl ⟨.entry, _, .begin hb, rfl⟩
  | version ha' hb hr =>
    cases ha.symm.trans ha'
    exact .inl ⟨.entry, _, .version hb hr, rfl⟩
  | @save _ version _ _ _ _ ha' hb hr hsave =>
    cases ha.symm.trans ha'
    rcases saveAndCommit_error hsave with rfl | ⟨x, rfl⟩
    · refine .inr ⟨version.getD 0, ?_⟩
      rw [versionError_of_toRow ha]
      rfl
    · exact .inl ⟨.writing, x, .save hb hr hsave, rfl⟩

end

/-! ## Locks -/

/-- A row that is saved is not committed while somebody reads. -/
theorem saveAndCommit_of_reader {now : Int} {row : ρ} {s s' : Store} {db : Database}
    (hsave : save α now row s = (.ok (), s')) (hw : s.WritesOver db)
    (hr : s.others.read = true) :
    ∃ s'', saveAndCommit α now row s = (.error (.access (.store .locked)), s'') := by
  have hw' := save_kept (α := α) (writesOver_keptBy db) hw now row
  have hr' := save_kept (α := α) (others_keptBy s.others) rfl now row
  rw [hsave] at hw' hr'
  have hrefused : ∃ s'', s'.commitOrAbort = (.error .locked, s'') := by
    obtain ⟨work, waits, ht⟩ := hw'.exists_work
    unfold Store.commitOrAbort Store.commit
    rw [ht]
    dsimp only
    rw [hr', hr]
    exact ⟨_, rfl⟩
  obtain ⟨s'', hrefused⟩ := hrefused
  refine ⟨s'', ?_⟩
  unfold saveAndCommit
  rw [hsave]
  dsimp only
  rw [hrefused]

variable [Layout γ] [StoredRecord α ρ γ] [LawfulRecord α ρ γ]

/-- While another connection reads and none writes, the upsert gets to its commit. -/
theorem storeFails_of_reader {s : Store} {rows : List ρ} (hs : s.transaction = .none)
    (hw : s.others.write = false) (hr : s.others.read = true) (hkeeps : Keeps α s.committed rows)
    (hadmits : Admits α s.committed) (hmax : ∀ u ∈ rows, Record.version α u < Text.maxInt64)
    (now : Int) (row : ρ) : StoreFails α now row s .writing .locked := by
  let begun : Store := { s with transaction := .writing s.committed false }
  have hb : s.begin = (.ok (), begun) := by
    unfold Store.begin
    rw [hw, hs]
    rfl
  have hread : begun.read (storedVersion α (Record.key α row))
      = (.ok ((rowAt α (Record.key α row) rows).map (Record.version α)), begun) := by
    show (storedVersion α (Record.key α row) s.committed, begun) = _
    rw [storedVersion_eq hkeeps]
  obtain ⟨x, s', hsave, hx⟩ := save_of_image (s := begun) (agreesOn_id fun _ => False) rfl
    hkeeps hadmits hmax now row
  obtain rfl : x = .ok () := hx.resolve_right fun ⟨_, h, _⟩ => h
  obtain ⟨s'', hcommit⟩ := saveAndCommit_of_reader hsave (Store.begin_ok hb).2 hr
  exact .save hb hread hcommit

end Repository

/-! ## Both kinds of records -/

/-- What a repository tells of the store when it upserts a record. -/
structure TellsStore {k : Entity} (r : Repository k.Content) (now : Int) (a : k.Content)
    (row : k.Row) (s : Store) : Prop where
  /-- What the store fails with is a conflict of the record if the upsert has got as far as writing,
  and otherwise none. -/
  told (stage : Stage) (x : StoreError) : StoreFails k.Content now row s stage x →
    (r.upsert now a s).result = .error (stage.tell (Record.id a) x)
  /-- Whatever the upsert fails with, the tables are as they were, and it was the store or the
  version that stood in the way. -/
  failure (e : RepositoryError) : (r.upsert now a s).result = .error e →
    s.SameTables (r.upsert now a s).store
      ∧ ((∃ stage x, StoreFails k.Content now row s stage x ∧ e = stage.tell (Record.id a) x)
        ∨ ∃ version, e = .conflict (Record.id a) (.version version))
  /-- So the failure is a conflict unless the store failed before the first write. -/
  conflict (e : RepositoryError) : (r.upsert now a s).result = .error e →
    (e.isConflict = true ↔ ¬ ∃ x, StoreFails k.Content now row s .entry x)
  /-- A connection that writes keeps others from getting in. -/
  writer : s.others.write = true → StoreFails k.Content now row s .entry .locked
  /-- One that reads keeps them from committing only. -/
  reader : s.transaction = .none → s.others.write = false → s.others.read = true →
    s.committed.MeetsSchema → s.committed.HasRoom → Admits k.Content s.committed →
    StoreFails k.Content now row s .writing .locked

/-- On a database that meets the schema the rows of each kind are kept. -/
theorem Database.MeetsSchema.exists_keeps {db : Database} (h : db.MeetsSchema) (k : Entity) :
    ∃ rows, Keeps k.Content db rows := by
  cases k with
  | alert =>
    obtain ⟨rows, hrows⟩ := h.exists_readsAs_alert
    exact ⟨rows, h.keepsAlerts hrows⟩
  | expression =>
    obtain ⟨rows, hrows⟩ := h.exists_readsAs_expression
    exact ⟨rows, h.keepsExpressions hrows⟩

/-- Contention is told as a conflict exactly if it comes up after the upsert was let in. -/
theorem contention_is_told (k : Entity) (r : Repository k.Content) (ho : r.state = .opened)
    (now : Int) (a : k.Content) (row : k.Row) (ha : Record.toRow a = .ok row) (s : Store)
    (hs : s.poisoned = false) : TellsStore r now a row s := by
  have hfailure : ∀ e, (r.upsert now a s).result = .error e →
      (∃ stage x, StoreFails k.Content now row s stage x ∧ e = stage.tell (Record.id a) x)
        ∨ ∃ version, e = .conflict (Record.id a) (.version version) :=
    fun e he => (Repository.upsert_error_cases ho he).exists_stage hs ha
  have htold : ∀ stage x, StoreFails k.Content now row s stage x →
      (r.upsert now a s).result = .error (stage.tell (Record.id a) x) :=
    fun stage x hx => Repository.upsert_of_storeFails ho hs ha hx
  refine ⟨htold, fun e he => ⟨Repository.upsert_error_sameTables r now a s he, hfailure e he⟩,
    ?_, ?_, ?_⟩
  · intro e he
    constructor
    · rintro hconflict ⟨x, hx⟩
      rw [htold _ _ hx] at he
      cases he
      cases hconflict
    · intro hentry
      rcases hfailure e he with ⟨stage, x, hx, rfl⟩ | ⟨version, rfl⟩
      · cases stage with
        | entry => exact absurd ⟨x, hx⟩ hentry
        | writing => rfl
      · rfl
  · intro hwrite
    have hb : s.begin = (.error .locked, s) := by
      unfold Store.begin
      rw [if_pos hwrite]
    exact .begin hb
  · intro hidle hwrite hread hmeets hroom hadmits
    obtain ⟨rows, hkeeps⟩ := hmeets.exists_keeps k
    exact Repository.storeFails_of_reader hidle hwrite hread hkeeps hadmits
      (hroom.version_lt hkeeps) now row

/-- A new store from which another connection reads. -/
def readStore : Store where
  others := { read := true }

/-- There an upsert is told to be a conflict, as it is refused at its commit. -/
theorem reader_is_told_as_conflict : readStore.others.read = true
    ∧ (Repository.openAlerts.upsert 0 AlertRow.watchedAlert readStore).result
      = .error (.conflict AlertRow.watchedAlert.id (.rejected .locked))
    ∧ readStore.SameTables
      (Repository.openAlerts.upsert 0 AlertRow.watchedAlert readStore).store := by
  have htells := contention_is_told .alert Repository.openAlerts rfl 0 AlertRow.watchedAlert _
    AlertRow.ofAlert_watchedAlert readStore rfl
  have hmeets : readStore.committed.MeetsSchema :=
    ⟨⟨nofun, nofun, .nil⟩, ⟨nofun, nofun, .nil⟩, ⟨nofun, nofun, .nil⟩, List.nil_subset _⟩
  have hroom : readStore.committed.HasRoom := by
    intro entity key n hn
    cases entity <;> cases hn
  have htold := htells.told .writing .locked
    (htells.reader rfl rfl rfl hmeets hroom (LawfulRecord.admits_empty (α := Alert)))
  exact ⟨rfl, htold, (htells.failure _ htold).1⟩

/-- Two connections to one file, of which the first one writes. -/
def contendedConnections : Connections :=
  [{ file := some "one.db", store := { transaction := .writing {} false } },
    { file := some "one.db" }]

/-- The second one is told that the store is locked, which is no conflict of the record. -/
theorem writer_is_not_told_as_conflict : ∃ s, contendedConnections.at? 1 = some s
    ∧ s.others.write = true ∧ s.poisoned = false
    ∧ (Repository.openAlerts.upsert 0 AlertRow.watchedAlert s).result
      = .error (.access (.store .locked))
    ∧ (RepositoryError.access (.store .locked)).isConflict = false
    ∧ ¬ ∃ c, (Repository.openAlerts.upsert 0 AlertRow.watchedAlert s).result
      = .error (.conflict AlertRow.watchedAlert.id c) := by
  have hat : contendedConnections.at? 1 = some { others := { write := true } } := rfl
  have hbegin : ({ others := { write := true } } : Store).begin
      = (.error .locked, { others := { write := true } }) := rfl
  have htold : (Repository.openAlerts.upsert 0 AlertRow.watchedAlert
      { others := { write := true } }).result = .error (.access (.store .locked)) :=
    Repository.upsert_of_storeFails rfl rfl AlertRow.ofAlert_watchedAlert (.begin hbegin)
  refine ⟨_, hat, rfl, rfl, htold, rfl, ?_⟩
  rintro ⟨c, hc⟩
  rw [htold] at hc
  cases hc

end AlertRegistry
