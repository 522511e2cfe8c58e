import AlertRegistry.Proofs.Repository.Errands
import AlertRegistry.Proofs.Repository.Lockstep

/-!
# What a kind of records overlooks

A kind of records overlooks a change of the database (`Overlooks`) if its statements do the same on
the changed database and its rows are read off it as before. Then the reply to every call is the
same too, with the change in what is committed afterwards (`Call.reply_isImage`): the transactions
of an upsert and of a removal go in step.

Alerts overlook what becomes of the expressions, and expressions what becomes of the alerts and
their side-records. So a reply is decided by the part of the database that holds its kind
(`Entity.SamePart`).
-/

namespace AlertRegistry

/-! ## Stores at rest -/

/-- A store with a database, at rest: nothing is begun, and there are no others. -/
def Database.atRest (db : Database) : Store where
  committed := db

/-- The store in a transaction that has come to another database. -/
def Database.begun (db work : Database) (waits : Bool) : Store where
  committed := db
  transaction := .writing work waits

theorem Database.read_atRest {β : Type} (db : Database) (f : Database → Except StoreError β) :
    db.atRest.read f = (f db, db.atRest) :=
  rfl

theorem Database.begin_atRest (db : Database) : db.atRest.begin = (.ok (), db.begun db false) :=
  rfl

/-- The connection is in a transaction that was begun on the database. -/
def Store.IsBegun (db : Database) (s : Store) : Prop :=
  ∃ work waits, s = db.begun work waits

section

variable {α ρ γ : Type} [Record α ρ γ]

theorem isBegun_keptBy (db : Database) : KeptBy α (·.IsBegun db) := by
  rintro s statement _ ⟨work, waits, rfl⟩
  show Store.IsBegun db (Store.execute _ _).2
  unfold Store.execute Database.begun
  dsimp only
  cases statement work with
  | error e => exact ⟨work, waits, rfl⟩
  | ok e => exact ⟨e.database, waits, rfl⟩

/-- Who begun on a database and on its image, and ends alike with no excuse, has come to a database
and to its image. -/
theorem Alike.exists_begun {ε β : Type} {told : ChangeError → ε} {F : Database → Database}
    {db : Database} {p q : Except ε β × Store} (h : Alike told (fun _ => False) F p q)
    (hp : p.2.IsBegun db) (hq : q.2.IsBegun (F db)) :
    ∃ x work waits, p = (x, db.begun work waits) ∧ q = (x, (F db).begun (F work) waits) := by
  cases h with
  | excused h => exact h.elim
  | same h =>
    obtain ⟨work, waits, rfl⟩ := hp
    obtain ⟨work', waits', rfl⟩ := hq
    obtain ⟨work₀, waits₀, hwork, hwork'⟩ := h
    cases hwork
    cases hwork'
    exact ⟨_, _, _, rfl, rfl⟩

/-! ## Kinds and changes -/

/-- A kind of records does not see a change of the database. -/
structure Overlooks (α : Type) {ρ γ : Type} [Record α ρ γ] (F : Database → Database) : Prop where
  /-- Its statements do the same. -/
  agrees : AgreesOn α (fun _ => False) F
  /-- Its table is the same. -/
  table (db : Database) : Record.table α (F db) = Record.table α db
  /-- Its rows are read in the same way. -/
  readRow (db : Database) : Record.readRow α (F db) = Record.readRow α db

theorem overlooks_id : Overlooks α id :=
  ⟨agreesOn_id _, fun _ => rfl, fun _ => rfl⟩

theorem overlooks_alert (h : Table ExpressionColumn → Table ExpressionColumn) :
    Overlooks Alert (Database.map id id h) :=
  ⟨agreesOn_alert (Table.isMirrored_id _) (Table.isMirrored_id _), fun _ => rfl, fun _ => rfl⟩

theorem overlooks_expression (f : Table AlertColumn → Table AlertColumn)
    (g : Table SideColumn → Table SideColumn) : Overlooks Expression (Database.map f g id) :=
  ⟨agreesOn_expression (Table.isMirrored_id _), fun _ => rfl, fun _ => rfl⟩

/-- Two replies are the same, and leave stores at rest of which the second one has the image of the
database. -/
structure Reply.IsImage {β : Type} (F : Database → Database) (x y : Reply β) : Prop where
  /-- The results are the same. -/
  result : y.result = x.result
  /-- The same is reported. -/
  events : y.events = x.events
  /-- The database is the image. -/
  store : ∃ db : Database, x.store = db.atRest ∧ y.store = (F db).atRest

theorem Reply.IsImage.map {β δ : Type} {F : Database → Database} {x y : Reply β}
    (h : x.IsImage F y) (f : β → δ) : (x.map f).IsImage F (y.map f) :=
  ⟨congrArg (Except.map f) h.result, h.events, h.store⟩

end

/-! ## Replies -/

section

variable {α ρ γ : Type} [Layout γ] [Record α ρ γ] {F : Database → Database}

namespace Overlooks

omit [Layout γ] in
theorem countRows_eq (h : Overlooks α F) (db : Database) :
    countRows α (F db) = countRows α db := by
  unfold countRows
  rw [h.table]

theorem findRow_eq (h : Overlooks α F) (key : String) (db : Database) :
    findRow α key (F db) = findRow α key db := by
  unfold findRow
  rw [h.table, h.readRow]

theorem storedVersion_eq (h : Overlooks α F) (key : String) (db : Database) :
    storedVersion α key (F db) = storedVersion α key db := by
  unfold storedVersion
  rw [h.table]

omit [Layout γ] in
theorem fetchPage_eq (h : Overlooks α F) (strategy : Strategy) (q : Query) (db : Database) :
    fetchPage α strategy q (F db) = fetchPage α strategy q db := by
  rw [fetchPage_eq_select, fetchPage_eq_select, h.table, h.readRow]

end Overlooks

namespace Repository

variable {r : Repository α} {db : Database}

omit [Layout γ] in
/-- A closed repository replies for itself. -/
theorem whenOpen_isImage {β : Type} {operation : Operation} {carryOn carryOn' : Unit → Reply β}
    (h : (carryOn ()).IsImage F (carryOn' ())) :
    (r.whenOpen operation db.atRest carryOn).IsImage F
      (r.whenOpen operation (F db).atRest carryOn') := by
  unfold whenOpen
  split
  · exact h
  · exact ⟨rfl, rfl, db, rfl, rfl⟩

omit [Layout γ] [Record α ρ γ] in
/-- A store at rest can be used. -/
theorem whenSound_isImage {β : Type} {events events' : List Event}
    {carryOn carryOn' : Unit → Reply β} (h : (carryOn ()).IsImage F (carryOn' ())) :
    (whenSound db.atRest events carryOn).IsImage F (whenSound (F db).atRest events' carryOn') := by
  rw [whenSound_of_sound rfl, whenSound_of_sound rfl]
  exact h

theorem get_isImage (h : Overlooks α F) (id : Uuid) :
    (r.get id db.atRest).IsImage F (r.get id (F db).atRest) := by
  refine whenOpen_isImage (whenSound_isImage ?_)
  rw [db.read_atRest, (F db).read_atRest, h.findRow_eq]
  rcases findRow α (toString id) db with e | _ | row <;> exact ⟨rfl, rfl, db, rfl, rfl⟩

omit [Layout γ] in
theorem count_isImage (h : Overlooks α F) :
    (r.count db.atRest).IsImage F (r.count (F db).atRest) := by
  refine whenOpen_isImage (whenSound_isImage ?_)
  rw [db.read_atRest, (F db).read_atRest, h.countRows_eq]
  exact ⟨rfl, rfl, db, rfl, rfl⟩

omit [Layout γ] in
theorem query_isImage (h : Overlooks α F) (q : BoundQuery) :
    (r.query q db.atRest).IsImage F (r.query q (F db).atRest) := by
  refine whenOpen_isImage ?_
  split
  · exact ⟨rfl, rfl, db, rfl, rfl⟩
  · refine whenSound_isImage ?_
    rw [db.read_atRest, (F db).read_atRest, h.fetchPage_eq]
    cases fetchPage α r.strategy q.query db <;> exact ⟨rfl, rfl, db, rfl, rfl⟩

omit [Layout γ] in
/-- A row is saved and committed on the image as it is on the database. -/
theorem exists_saveAndCommit_begun (h : Overlooks α F) (now : Int) (row : ρ) (db : Database) :
    ∃ x db', saveAndCommit α now row (db.begun db false) = (x, db'.atRest)
      ∧ saveAndCommit α now row ((F db).begun (F db) false) = (x, (F db').atRest) := by
  have halike := save_alike h.agrees (s := db.begun db false) (t := (F db).begun (F db) false)
    ⟨db, false, rfl, rfl⟩ now row
  obtain ⟨x, work, waits, hp, hq⟩ := halike.exists_begun
    (save_kept (isBegun_keptBy db) ⟨db, false, rfl⟩ now row)
    (save_kept (isBegun_keptBy (F db)) ⟨F db, false, rfl⟩ now row)
  unfold saveAndCommit
  rw [hp, hq]
  cases x with
  | error e => exact ⟨_, db, rfl, rfl⟩
  | ok => exact ⟨_, work, rfl, rfl⟩

theorem upsert_isImage (h : Overlooks α F) (now : Int) (a : α) :
    (r.upsert now a db.atRest).IsImage F (r.upsert now a (F db).atRest) := by
  refine whenOpen_isImage ?_
  dsimp only
  cases (Record.toRow a : Except RecordError ρ) with
  | error e => exact ⟨rfl, rfl, db, rfl, rfl⟩
  | ok row =>
    refine whenSound_isImage ?_
    rw [db.begin_atRest, (F db).begin_atRest]
    have hread : ∀ db : Database, (db.begun db false).read (storedVersion α (Record.key α row))
        = (storedVersion α (Record.key α row) db, db.begun db false) := fun _ => rfl
    dsimp only
    rw [hread, hread, h.storedVersion_eq]
    cases storedVersion α (Record.key α row) db with
    | error e => exact ⟨rfl, rfl, db, rfl, rfl⟩
    | ok version =>
      obtain ⟨x, db', hp, hq⟩ := exists_saveAndCommit_begun h now
        (Record.withVersion α row (version.getD 0)) db
      dsimp only
      rw [hp, hq]
      cases x <;> exact ⟨rfl, rfl, db', rfl, rfl⟩

omit [Layout γ] in
theorem clear_isImage (h : Overlooks α F) :
    (r.clear db.atRest).IsImage F (r.clear (F db).atRest) := by
  refine whenOpen_isImage (whenSound_isImage ?_)
  rw [db.begin_atRest, (F db).begin_atRest]
  have hbeside := executeIfAny_alike h.agrees (s := db.begun db false)
    (t := (F db).begun (F db) false) ⟨db, false, rfl, rfl⟩
  obtain ⟨x, work, waits, hp, hq⟩ := hbeside.exists_begun
    (executeIfAny_kept (isBegun_keptBy db) ⟨db, false, rfl⟩)
    (executeIfAny_kept (isBegun_keptBy (F db)) ⟨F db, false, rfl⟩)
  dsimp only
  rw [hp, hq]
  cases x with
  | error e => exact ⟨rfl, rfl, db, rfl, rfl⟩
  | ok n =>
    have hclear := Store.InStep.execute (s := db.begun work waits)
      (t := (F db).begun (F work) waits) ⟨work, waits, rfl, rfl⟩ (h.agrees _ .clear)
    obtain ⟨x, work', waits', hp, hq⟩ := hclear.exists_begun
      (isBegun_keptBy db _ _ .clear ⟨work, waits, rfl⟩)
      (isBegun_keptBy (F db) _ _ .clear ⟨F work, waits, rfl⟩)
    dsimp only
    rw [hp, hq]
    cases x with
    | error e => exact ⟨rfl, rfl, db, rfl, rfl⟩
    | ok removed => exact ⟨rfl, rfl, work', rfl, rfl⟩

end Repository

/-- A change that is overlooked makes no difference to any call. -/
theorem Call.reply_isImage (h : Overlooks α F) (r : Repository α) (c : Call α) (db : Database) :
    (c.reply r db.atRest).IsImage F (c.reply r (F db).atRest) := by
  cases c with
  | upsert now a => exact (Repository.upsert_isImage h now a).map _
  | get id => exact (Repository.get_isImage h id).map _
  | count => exact (Repository.count_isImage h).map _
  | query q => exact (Repository.query_isImage h q).map _
  | clear => exact (Repository.clear_isImage h).map _

end

/-! ## Parts -/

namespace Entity.SamePart

variable {k : Entity} {db db' db'' : Database}

theorem refl (k : Entity) (db : Database) : k.SamePart db db := by
  cases k with
  | alert => exact ⟨rfl, rfl⟩
  | expression => rfl

theorem symm (h : k.SamePart db db') : k.SamePart db' db := by
  cases k with
  | alert => exact ⟨h.1.symm, h.2.symm⟩
  | expression => exact Eq.symm h

theorem trans (h : k.SamePart db db') (h' : k.SamePart db' db'') : k.SamePart db db'' := by
  cases k with
  | alert => exact ⟨h'.1.trans h.1, h'.2.trans h.2⟩
  | expression => exact Eq.trans h' h

/-- What lies outside of the part is overlooked. -/
theorem exists_overlooks (h : k.SamePart db db') :
    ∃ F, Overlooks k.Content F ∧ F db = db' ∧ ∀ d, k.SamePart d (F d) := by
  obtain ⟨alerts, sides, expressions⟩ := db'
  cases k with
  | alert =>
    obtain ⟨rfl, rfl⟩ := h
    exact ⟨_, overlooks_alert fun _ => expressions, rfl, fun _ => ⟨rfl, rfl⟩⟩
  | expression =>
    obtain rfl := h
    exact ⟨_, overlooks_expression (fun _ => alerts) fun _ => sides, rfl, fun _ => rfl⟩

end Entity.SamePart

end AlertRegistry
