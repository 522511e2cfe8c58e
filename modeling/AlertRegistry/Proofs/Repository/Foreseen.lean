import AlertRegistry.Proofs.Repository.Contention
import AlertRegistry.Proofs.Repository.Malformed

/-!
# Errors that do not come up

On a database that meets its schema an upsert fails for locks, for a transaction that is open
already, for a record without row, or since a table was told to reject the change (`Foreseen`); no
constraint of the schema, no version and no row is ever in its way. The reason is that without the
rejections the row would be saved (`save_of_image` for `Database.tolerant`): the version that is
read is the one that is written over, and it is at least 1, so that only a new row is inserted; the
later of two stamps is not before the first one; and a side-record follows its alert.

An upsert that succeeds has inserted one row or replaced one row, and says which (`Branch`). What is
beside the row is written to the store that this statement left, and that is what is committed.
-/

namespace AlertRegistry

open StoredRecord (Admits Keeps)

/-- The errors of an upsert that do come up. -/
inductive Foreseen (id : Uuid) : RepositoryError → Prop
  /-- The record has no row. -/
  | record (e : RecordError) : Foreseen id (.record id e)
  /-- The connection cannot be used. -/
  | poisoned : Foreseen id (.access .poisoned)
  /-- Another connection writes. -/
  | locked : Foreseen id (.access (.store .locked))
  /-- The connection is in a transaction already. -/
  | nested : Foreseen id (.access (.store .nested))
  /-- Another connection reads. -/
  | uncommitted : Foreseen id (.conflict id (.rejected .locked))
  /-- A table was told to reject the change. -/
  | rejected (message : String) :
    Foreseen id (.conflict id (.rejected (.change (.rejected message))))

/-- How a row is saved in one store, which leads to another: as a new one, or over exactly one old
one. -/
inductive Branch (α : Type) {ρ γ : Type} [Record α ρ γ] (now : Int) (row : ρ) (s s' : Store) :
    Outcome → Prop
  /-- The row has no version yet and is inserted. -/
  | inserted (hv : Record.version α row = 0)
    (h : s.execute (Record.insert α now row) = (.ok 1, s')) : Branch α now row s s' .created
  /-- The row has a version and replaces one row. -/
  | replaced (hv : Record.version α row ≠ 0)
    (h : s.execute (Record.replace α now row) = (.ok 1, s')) : Branch α now row s s' .updated

/-! ## Without rejections -/

namespace Database

/-- The database without the rejections of its tables. -/
def tolerant : Database → Database :=
  map Table.tolerant Table.tolerant Table.tolerant

variable {db : Database}

theorem MeetsSchema.tolerant (h : db.MeetsSchema) : db.tolerant.MeetsSchema where
  alerts := ⟨h.alerts.typed, h.alerts.checked, h.alerts.nodup⟩
  sides := ⟨h.sides.typed, h.sides.checked, h.sides.nodup⟩
  expressions := ⟨h.expressions.typed, h.expressions.checked, h.expressions.nodup⟩
  referenced := h.referenced

theorem HasRoom.tolerant (h : db.HasRoom) : db.tolerant.HasRoom := by
  intro entity key n hn
  refine h entity key n ?_
  cases entity <;> exact hn

end Database

namespace Entity

variable (k : Entity)

theorem admits_tolerant (db : Database) : Admits k.Content db.tolerant := by
  cases k with
  | alert => exact ⟨fun _ => rfl, fun _ => rfl⟩
  | expression => exact fun _ => rfl

theorem agreesOn_tolerant : AgreesOn k.Content Table.IsRejection Database.tolerant := by
  cases k with
  | alert => exact agreesOn_alert Table.isMirrored_tolerant Table.isMirrored_tolerant
  | expression => exact agreesOn_expression Table.isMirrored_tolerant

theorem storedVersion_tolerant (key : String) (db : Database) :
    storedVersion k.Content key db.tolerant = storedVersion k.Content key db := by
  cases k <;> rfl

end Entity

/-! ## Counts -/

namespace Entity

variable {k : Entity} {db : Database} {e : Effect} {now : Int} {row : k.Row}

theorem insert_count (he : Record.insert k.Content now row db = .ok e) : e.count = 1 := by
  cases k with
  | alert =>
    obtain ⟨T, _, hfinish⟩ := bind_eq_ok he
    exact Database.count_of_finish hfinish
  | expression =>
    obtain ⟨T, _, hdone⟩ := bind_eq_ok he
    cases hdone
    rfl

theorem replace_count (h : db.MeetsSchema) (he : Record.replace k.Content now row db = .ok e) :
    e.count ≤ 1 := by
  cases k with
  | alert =>
    obtain ⟨T, _, hfinish⟩ := bind_eq_ok he
    rw [Database.count_of_finish hfinish]
    refine Table.count_le_one h.alerts.nodup (.text row.id) fun t ht => ?_
    simp only [Bool.and_eq_true, decide_eq_true_eq] at ht
    exact ht.1
  | expression =>
    obtain ⟨T, _, hdone⟩ := bind_eq_ok he
    cases hdone
    refine Table.count_le_one h.expressions.nodup (.text row.id) fun t ht => ?_
    simp only [Bool.and_eq_true, decide_eq_true_eq] at ht
    exact ht.1

end Entity

/-! ## Upserts -/

section

variable {k : Entity} {r : Repository k.Content} {now : Int} {a : k.Content} {row : k.Row}
  {s s₁ s₂ : Store} {x : Except StoreError (Option Int)}

/-- Once it is let in an upsert finds a version with which its row would be saved if nothing were
rejected. -/
theorem exists_rows_of_begin (h : s.committed.MeetsSchema) (hroom : s.committed.HasRoom)
    (hb : s.begin = (.ok (), s₁))
    (hr : s₁.read (storedVersion k.Content (Record.key k.Content row)) = (x, s₂)) :
    s₂.transaction = .writing s.committed false
      ∧ ∃ rows, Keeps k.Content s.committed.tolerant rows
        ∧ (∀ u ∈ rows, Record.version k.Content u < Text.maxInt64)
        ∧ x = .ok ((rowAt k.Content (Record.key k.Content row) rows).map
          (Record.version k.Content)) := by
  obtain rfl := Store.begin_ok_eq hb
  obtain ⟨rows, hkeeps⟩ := h.tolerant.exists_keeps k
  have hversion := storedVersion_eq hkeeps (Record.key k.Content row)
  rw [k.storedVersion_tolerant] at hversion
  have hread : (storedVersion k.Content (Record.key k.Content row) s.committed,
      { s with transaction := .writing s.committed false }) = (x, s₂) := hr
  cases hread
  exact ⟨rfl, rows, hkeeps, hroom.tolerant.version_lt hkeeps, hversion⟩

/-- Whatever an upsert fails with is foreseen. -/
theorem Repository.UpsertFailure.foreseen (h : s.committed.MeetsSchema)
    (hroom : s.committed.HasRoom) {e : RepositoryError} {s' : Store}
    (hfailure : UpsertFailure now a s e s') : Foreseen (Record.id a) e := by
  cases hfailure with
  | record _ => exact .record _
  | poisoned _ => exact .poisoned
  | begin _ hb =>
    rcases Store.begin_error_cases hb with rfl | rfl
    · exact .locked
    · exact .nested
  | version _ hb hr =>
    obtain ⟨_, rows, _, _, hx⟩ := exists_rows_of_begin h hroom hb hr
    cases hx
  | @save row version _ _ s₂ _ _ hb hr hsave =>
    obtain ⟨htransaction, rows, hkeeps, hmax, hx⟩ := exists_rows_of_begin h hroom hb hr
    obtain ⟨x, s', hsaved, hx'⟩ := save_of_image k.agreesOn_tolerant htransaction hkeeps
      (k.admits_tolerant _) hmax now row
    rw [← Except.ok.inj hx] at hsaved
    obtain ⟨_, hfailed, _⟩ | ⟨s₃, y, hdone, hcommit, rfl⟩ := saveAndCommit_error_cases hsave
    · -- the row is not saved: only for a rejection
      cases hsaved.symm.trans hfailed
      rcases hx' with hok | ⟨_, ⟨message, rfl⟩, herror⟩
      · cases hok
      · cases herror
        exact .rejected message
    · -- the commit is refused: only for a reader
      have hw := save_kept (α := k.Content) (writesOver_keptBy s.committed)
        (Store.writesOver_of_read hb hr) now (Record.withVersion k.Content row (version.getD 0))
      rw [hdone] at hw
      obtain rfl := Store.commitOrAbort_error_cases hw hcommit
      exact .uncommitted

/-- An upsert that succeeds has taken the branch that it tells, and what this left is written beside
and committed. -/
theorem upsert_branch (h : s.committed.MeetsSchema) (hroom : s.committed.HasRoom) {o : Outcome}
    (hok : (r.upsert now a s).result = .ok o) :
    ∃ row s₁ version s₂ s₃ s₄, Record.toRow a = .ok row ∧ s.begin = (.ok (), s₁)
      ∧ s₁.read (storedVersion k.Content (Record.key k.Content row)) = (.ok version, s₂)
      ∧ Branch k.Content now (Record.withVersion k.Content row (version.getD 0)) s₂ s₃ o
      ∧ saveBeside k.Content (Record.withVersion k.Content row (version.getD 0)) s₃ = (.ok (), s₄)
      ∧ s₄.commitOrAbort = (.ok (), (r.upsert now a s).store) := by
  obtain ⟨_, _, row, s₁, version, s₂, hrow, hb, hr, hsave, rfl⟩ := Repository.upsert_ok_cases hok
  obtain ⟨htransaction, rows, hkeeps, _, hx⟩ := exists_rows_of_begin h hroom hb hr
  have hview : s₂.view = s.committed := by
    unfold Store.view
    rw [htransaction]
  obtain ⟨s₄, hsaved, hcommit⟩ := Repository.saveAndCommit_ok_cases hsave
  obtain ⟨n, s₃, hbeside, hbranch⟩ := save_ok_cases hsaved
  refine ⟨row, s₁, version, s₂, s₃, s₄, hrow, hb, hr, ?_, hbeside, hcommit⟩
  rw [LawfulRecord.version_withVersion] at hbranch
  cases hold : rowAt k.Content (Record.key k.Content row) rows with
  | none =>
    rw [hold] at hx
    cases hx
    obtain ⟨_, hexecute⟩ | ⟨hv, _⟩ := hbranch
    · obtain ⟨e, he, rfl, _⟩ := Store.execute_eq_ok hexecute
      rw [Entity.insert_count he] at hexecute
      exact .inserted (LawfulRecord.version_withVersion row 0) hexecute
    · exact absurd rfl hv
  | some u =>
    rw [hold] at hx
    cases hx
    -- stored versions are not 0
    have hpos := LawfulRecord.written hkeeps u (mem_of_rowAt k.Content hold).1
    obtain ⟨hv, _⟩ | ⟨hv, hn, hexecute⟩ := hbranch
    · rw [Option.map_some, Option.getD_some] at hv
      omega
    · obtain ⟨e, he, rfl, _⟩ := Store.execute_eq_ok hexecute
      have hle := Entity.replace_count (hview.symm ▸ h) he
      rw [show e.count = 1 by omega] at hexecute
      exact .replaced (by rwa [LawfulRecord.version_withVersion]) hexecute

end

/-! ## All operations -/

/-- An operation of an open repository that is no upsert fails since the repository is open, since
the query is not its own, or for the store. -/
theorem Ask.reply_error_cases {α ρ γ : Type} [Layout γ] [Record α ρ γ] {r : Repository α}
    {s : Store} (ho : r.state = .opened) {ask : Ask α} {e : RepositoryError}
    (he : (ask.reply r s).result = .error e) :
    e = .state (Record.entity α) .start .closed .opened ∨ e = .foreignQuery (Record.entity α)
      ∨ (∃ x, e = .access x) ∨ ∃ now a, (r.upsert now a s).result = .error e := by
  cases ask with
  | start =>
    have hstart := map_eq_error he
    unfold Repository.start Repository.move at hstart
    rw [ho] at hstart
    cases hstart
    exact .inl rfl
  | stop =>
    have hstop := map_eq_error he
    unfold Repository.stop Repository.move at hstop
    rw [ho] at hstop
    cases hstop
  | createQuery q =>
    have hcreate := map_eq_error he
    unfold Repository.createQuery Repository.requireOpen at hcreate
    rw [ho] at hcreate
    cases hcreate
  | call c =>
    cases c with
    | upsert now a => exact .inr (.inr (.inr ⟨now, a, map_eq_error he⟩))
    | get id => exact .inr (.inr (.inl (Repository.get_error ho (map_eq_error he))))
    | count => exact .inr (.inr (.inl (Repository.count_error ho (map_eq_error he))))
    | query q =>
      rcases Repository.query_error ho (map_eq_error he) with hforeign | haccess
      · exact .inr (.inl hforeign)
      · exact .inr (.inr (.inl haccess))
    | clear => exact .inr (.inr (.inl (Repository.clear_error ho (map_eq_error he))))

/-- On a database that meets its schema no operation fails for a row, no upsert fails for a version
or a constraint, and an upsert that succeeds tells how it saved its row, in the store that it then
committed. -/
theorem rare_errors_do_not_come_up (s : Store) (h : s.committed.MeetsSchema)
    (hroom : s.committed.HasRoom) (k : Entity) (r : Repository k.Content)
    (ho : r.state = .opened) :
    (∀ (ask : Ask k.Content) (e : RowError), (ask.reply r s).result ≠ .error (.row e))
    ∧ ∀ (now : Int) (a : k.Content),
      (∀ e, (r.upsert now a s).result = .error e →
        Foreseen (Record.id a) e ∧ (∀ id expected, e ≠ .conflict id (.version expected))
          ∧ ∀ id x, e = .conflict id (.rejected (.change x)) → ∃ message, x = .rejected message)
      ∧ ∀ o, (r.upsert now a s).result = .ok o →
        ∃ row s₁ version s₂ s₃ s₄, Record.toRow a = .ok row ∧ s.begin = (.ok (), s₁)
          ∧ s₁.read (storedVersion k.Content (Record.key k.Content row)) = (.ok version, s₂)
          ∧ Branch k.Content now (Record.withVersion k.Content row (version.getD 0)) s₂ s₃ o
          ∧ saveBeside k.Content (Record.withVersion k.Content row (version.getD 0)) s₃
            = (.ok (), s₄)
          ∧ s₄.commitOrAbort = (.ok (), (r.upsert now a s).store) := by
  have hforeseen : ∀ now a e, (r.upsert now a s).result = .error e → Foreseen (Record.id a) e :=
    fun now a e he => (Repository.upsert_error_cases ho he).foreseen h hroom
  refine ⟨fun ask e he => ?_, fun now a => ⟨fun e he => ⟨hforeseen now a e he, ?_, ?_⟩,
    fun o hok => upsert_branch h hroom hok⟩⟩
  · rcases Ask.reply_error_cases ho he with hstate | hforeign | ⟨x, haccess⟩ | ⟨now, a, hupsert⟩
    · cases hstate
    · cases hforeign
    · cases haccess
    · cases hforeseen now a _ hupsert
  · rintro id expected rfl
    cases hforeseen now a _ he
  · rintro id x rfl
    cases hforeseen now a _ he
    exact ⟨_, rfl⟩

theorem spoiledStore_hasRoom : spoiledStore.committed.HasRoom := by
  intro entity key n hn
  cases entity with
  | alert =>
    obtain ⟨t, ht, hversion⟩ := Option.map_eq_some_iff.1 hn
    obtain rfl := List.mem_singleton.1 (List.mem_of_find?_eq_some ht)
    cases hversion
    decide
  | expression => cases hn

/-- An alert that cannot be read is replaced by exactly one row. -/
theorem spoiled_alert_is_replaced : spoiledStore.committed.MeetsSchema
    ∧ spoiledStore.committed.HasRoom
    ∧ (Repository.openAlerts.upsert 9 AlertRow.watchedAlert spoiledStore).result = .ok .updated
    ∧ ∃ row s₁ version s₂ s₃ s₄, Record.toRow AlertRow.watchedAlert = .ok row
      ∧ spoiledStore.begin = (.ok (), s₁)
      ∧ s₁.read (storedVersion Alert (Record.key Alert row)) = (.ok version, s₂)
      ∧ Branch Alert 9 (Record.withVersion Alert row (version.getD 0)) s₂ s₃ .updated
      ∧ saveBeside Alert (Record.withVersion Alert row (version.getD 0)) s₃ = (.ok (), s₄)
      ∧ s₄.commitOrAbort
        = (.ok (), (Repository.openAlerts.upsert 9 AlertRow.watchedAlert spoiledStore).store) := by
  have hupdated : (Repository.openAlerts.upsert 9 AlertRow.watchedAlert spoiledStore).result
      = .ok .updated := by
    with_unfolding_all rfl
  exact ⟨spoiledStore_meetsSchema, spoiledStore_hasRoom, hupdated,
    ((rare_errors_do_not_come_up spoiledStore spoiledStore_meetsSchema spoiledStore_hasRoom .alert
      Repository.openAlerts rfl).2 9 AlertRow.watchedAlert).2 _ hupdated⟩

end AlertRegistry
