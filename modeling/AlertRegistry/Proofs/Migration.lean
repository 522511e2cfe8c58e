import AlertRegistry.Proofs.Reading
import AlertRegistry.Schema.Migration
import Mathlib.Data.List.Flatten

/-!
# Migrations

A run of steps succeeds exactly if the names of all objects that it makes are free and differ from
each other (`runSteps_eq_ok_iff`), and then the catalog has these objects behind its own
(`Catalog.after`). So a run can be cut anywhere (`hasRoomFor_append`, `after_append`). The steps
that a catalog lacks are an end of the list of all steps, and a run of some of them leaves the
others to be taken (`pending_of_append`).

The statements of steps do to a file what the steps do to the catalog that is seen through the
connection (`SchemaFile.exists_runSteps`). In a transaction that is not the catalog of the file,
which therefore comes back when the transaction is rolled back (`SchemaFile.committed_rollback`).

From this follows what bringing a catalog to the newest version does: `migrate_all_or_none`.
-/

namespace AlertRegistry

/-- The name of the object. -/
def SchemaObject.name : SchemaObject → String
  | table name => name
  | index name => name

/-- The table, as it is made. -/
def SchemaObject.table? : SchemaObject → Option StoredTable
  | table name => some { name }
  | index _ => none

/-- The name of the index. -/
def SchemaObject.index? : SchemaObject → Option String
  | table _ => none
  | index name => some name

/-- The names differ, not only in the case of their letters. -/
def SchemaObject.Differ (o p : SchemaObject) : Prop :=
  Text.lower o.name ≠ Text.lower p.name

instance (o p : SchemaObject) : Decidable (o.Differ p) :=
  inferInstanceAs (Decidable (Text.lower o.name ≠ Text.lower p.name))

/-- Takes the step. -/
def SchemaStep.run (step : SchemaStep) (c : Catalog) : Except StoreError Catalog := do
  let c ← step.objects.foldlM Catalog.create c
  return { c with version := step.version }

/-- Takes steps one after the other and reports each that begins. -/
def Catalog.runSteps (c : Catalog) : List SchemaStep → Except StoreError Catalog × List Event
  | [] => (.ok c, [])
  | step :: steps =>
    match step.run c with
    | .error e => (.error e, [step.started])
    | .ok c =>
      let (result, events) := c.runSteps steps
      (result, step.started :: events)

/-- What the steps make. -/
def SchemaStep.objectsOf (steps : List SchemaStep) : List SchemaObject :=
  steps.flatMap SchemaStep.objects

namespace Catalog

open SchemaStep (objectsOf)

/-- No table and no index has the name. -/
def IsFree (c : Catalog) (name : String) : Prop :=
  c.hasTable name = false ∧ c.hasIndex name = false

instance (c : Catalog) (name : String) : Decidable (c.IsFree name) :=
  inferInstanceAs (Decidable (_ ∧ _))

/-- The objects can be made one after the other. -/
def HasRoomFor (c : Catalog) (objects : List SchemaObject) : Prop :=
  (∀ o ∈ objects, c.IsFree o.name) ∧ objects.Pairwise SchemaObject.Differ

/-- The catalog with further objects behind its own. -/
def extend (c : Catalog) (objects : List SchemaObject) : Catalog :=
  { c with
    tables := c.tables ++ objects.filterMap SchemaObject.table?
    indexes := c.indexes ++ objects.filterMap SchemaObject.index? }

/-- The catalog after steps that succeed. -/
def after (c : Catalog) (steps : List SchemaStep) : Catalog :=
  { c.extend (objectsOf steps) with
    version := (steps.getLast?.map fun step => (step.version : Int)).getD c.version }

/-- The object is there; a table is as it was made. -/
def Has (c : Catalog) : SchemaObject → Prop
  | .table name => { name } ∈ c.tables
  | .index name => name ∈ c.indexes

/-! ## Making objects -/

variable {c d : Catalog}

theorem extend_table (name : String) :
    c.extend [.table name] = { c with tables := c.tables ++ [{ name }] } := by
  simp [extend, List.filterMap_cons, SchemaObject.table?, SchemaObject.index?]

theorem extend_index (name : String) :
    c.extend [.index name] = { c with indexes := c.indexes ++ [name] } := by
  simp [extend, List.filterMap_cons, SchemaObject.table?, SchemaObject.index?]

theorem create_eq_ok_iff {o : SchemaObject} :
    c.create o = .ok d ↔ c.IsFree o.name ∧ d = c.extend [o] := by
  unfold IsFree
  cases o with
  | table name =>
    rw [extend_table]
    cases ht : c.hasTable name <;> cases hi : c.hasIndex name <;>
      simp [create, SchemaObject.name, ht, hi, eq_comm]
  | index name =>
    rw [extend_index]
    cases ht : c.hasTable name <;> cases hi : c.hasIndex name <;>
      simp [create, SchemaObject.name, ht, hi, eq_comm]

theorem extend_nil : c.extend [] = c := by
  simp [extend]

theorem extend_append (os ps : List SchemaObject) :
    c.extend (os ++ ps) = (c.extend os).extend ps := by
  simp [extend]

theorem isFree_extend_singleton {o : SchemaObject} {name : String} :
    (c.extend [o]).IsFree name ↔ c.IsFree name ∧ Text.lower o.name ≠ Text.lower name := by
  unfold IsFree
  cases o with
  | table n =>
    simp [extend_table, hasTable, hasIndex, SchemaObject.name]
    tauto
  | index n =>
    simp [extend_index, hasTable, hasIndex, SchemaObject.name]
    tauto

theorem hasRoomFor_cons {o : SchemaObject} {os : List SchemaObject} :
    c.HasRoomFor (o :: os) ↔ c.IsFree o.name ∧ (c.extend [o]).HasRoomFor os := by
  simp only [HasRoomFor, List.forall_mem_cons, List.pairwise_cons, isFree_extend_singleton,
    SchemaObject.Differ, forall_and]
  tauto

theorem createAll_eq_ok_iff {os : List SchemaObject} :
    os.foldlM create c = .ok d ↔ c.HasRoomFor os ∧ d = c.extend os := by
  induction os generalizing c with
  | nil =>
    rw [extend_nil]
    simp [HasRoomFor, pure, Except.pure, eq_comm]
  | cons o os ih =>
    -- the others are made beside the first one, so their names have to differ from its name
    rw [List.foldlM_cons, hasRoomFor_cons, show o :: os = [o] ++ os from rfl, extend_append]
    constructor
    · intro h
      obtain ⟨b, hb, h⟩ := bind_eq_ok h
      obtain ⟨hfree, rfl⟩ := create_eq_ok_iff.1 hb
      obtain ⟨hroom, hd⟩ := ih.1 h
      exact ⟨⟨hfree, hroom⟩, hd⟩
    · intro ⟨⟨hfree, hroom⟩, hd⟩
      rw [create_eq_ok_iff.2 ⟨hfree, rfl⟩]
      exact ih.2 ⟨hroom, hd⟩

/-! ## Taking steps -/

theorem step_eq_ok_iff {step : SchemaStep} :
    step.run c = .ok d ↔ c.HasRoomFor step.objects ∧ d = c.after [step] := by
  have hafter : c.after [step] = { c.extend step.objects with version := step.version } := by
    simp [after, objectsOf]
  rw [hafter]
  constructor
  · intro h
    obtain ⟨b, hb, h⟩ := bind_eq_ok h
    obtain ⟨hroom, rfl⟩ := createAll_eq_ok_iff.1 hb
    exact ⟨hroom, (Except.ok.inj h).symm⟩
  · intro ⟨hroom, hd⟩
    unfold SchemaStep.run
    rw [createAll_eq_ok_iff.2 ⟨hroom, rfl⟩, hd]
    rfl

theorem after_nil : c.after [] = c := by
  simp [after, objectsOf, extend]

theorem after_append (p q : List SchemaStep) : c.after (p ++ q) = (c.after p).after q := by
  cases h : q.getLast? <;>
    simp [after, objectsOf, extend, List.getLast?_append, h]

theorem hasRoomFor_append {os ps : List SchemaObject} :
    c.HasRoomFor (os ++ ps) ↔ c.HasRoomFor os ∧ (c.extend os).HasRoomFor ps := by
  induction os generalizing c with
  | nil => simp [extend_nil, HasRoomFor]
  | cons o os ih =>
    rw [List.cons_append, hasRoomFor_cons, hasRoomFor_cons, ih, ← extend_append, and_assoc]
    rfl

theorem hasRoomFor_objectsOf_append {p q : List SchemaStep} :
    c.HasRoomFor (objectsOf (p ++ q)) ↔
      c.HasRoomFor (objectsOf p) ∧ (c.after p).HasRoomFor (objectsOf q) := by
  rw [objectsOf, List.flatMap_append]
  exact hasRoomFor_append

theorem runSteps_eq_ok_iff {steps : List SchemaStep} :
    (c.runSteps steps).1 = .ok d ↔ c.HasRoomFor (objectsOf steps) ∧ d = c.after steps := by
  induction steps generalizing c with
  | nil => simp [runSteps, HasRoomFor, objectsOf, after_nil, eq_comm]
  | cons step steps ih =>
    rw [show step :: steps = [step] ++ steps from rfl, hasRoomFor_objectsOf_append, after_append,
      and_assoc, ← ih]
    simp only [List.cons_append, List.nil_append, runSteps]
    have hone : objectsOf [step] = step.objects := by simp [objectsOf]
    rw [hone]
    cases hrun : step.run c with
    | error e =>
      refine iff_of_false nofun fun h => ?_
      rw [step_eq_ok_iff.2 ⟨h.1, rfl⟩] at hrun
      cases hrun
    | ok b =>
      obtain ⟨hroom, rfl⟩ := step_eq_ok_iff.1 hrun
      exact (and_iff_right hroom).symm

end Catalog

/-! ## Statements on a file -/

/-- The statements of a step take it. -/
theorem SchemaStep.foldlM_statements (step : SchemaStep) (c : Catalog) :
    step.statements.foldlM (fun c statement => statement c) c = step.run c := by
  unfold statements run
  rw [List.foldlM_append, List.foldlM_map]
  simp only [List.foldlM_cons, List.foldlM_nil]
  cases step.objects.foldlM Catalog.create c <;> rfl

namespace SchemaFile

variable {f : SchemaFile} {c d : Catalog}

/-- The file with another catalog where the connection sees it. -/
def withView (f : SchemaFile) (c : Catalog) : SchemaFile :=
  match f.work with
  | none => { f with committed := c }
  | some _ => { f with work := some c }

theorem view_withView (f : SchemaFile) (c : Catalog) : (f.withView c).view = c := by
  obtain ⟨_, work⟩ := f
  cases work <;> rfl

theorem withView_withView (f : SchemaFile) (c d : Catalog) :
    (f.withView c).withView d = f.withView d := by
  obtain ⟨_, work⟩ := f
  cases work <;> rfl

theorem withView_view (f : SchemaFile) : f.withView f.view = f := by
  obtain ⟨_, work⟩ := f
  cases work <;> rfl

theorem execute_of_ok {statement : SchemaStatement} (h : statement f.view = .ok c) :
    f.execute statement = (.ok (), f.withView c) := by
  unfold execute withView
  rw [h]
  cases f.work <;> rfl

theorem execute_of_error {statement : SchemaStatement} {e : StoreError}
    (h : statement f.view = .error e) : f.execute statement = (.error e, f) := by
  unfold execute
  rw [h]

/-- Statements do to the file what they do to the catalog that is seen. If one of them fails, those
before it have had their effect. -/
theorem exists_executeAll (f : SchemaFile) (statements : List SchemaStatement) :
    ∃ c, f.executeAll statements
        = ((statements.foldlM (fun c (statement : SchemaStatement) => statement c) f.view).map
            fun _ => (), f.withView c)
      ∧ ∀ d, statements.foldlM (fun c (statement : SchemaStatement) => statement c) f.view = .ok d
        → c = d := by
  induction statements generalizing f with
  | nil => exact ⟨f.view, by rw [withView_view]; rfl, fun d h => Except.ok.inj h⟩
  | cons statement statements ih =>
    rw [List.foldlM_cons, executeAll]
    cases hfirst : statement f.view with
    | error e =>
      rw [execute_of_error hfirst]
      exact ⟨f.view, by rw [withView_view]; rfl, nofun⟩
    | ok b =>
      rw [execute_of_ok hfirst]
      obtain ⟨c, hrest, hc⟩ := ih (f.withView b)
      rw [view_withView, withView_withView] at hrest
      rw [view_withView] at hc
      exact ⟨c, hrest, hc⟩

/-- Steps do to the file, and report, what they do to the catalog that is seen. If one of them
fails, the file is as it was but for that catalog. -/
theorem exists_runSteps (f : SchemaFile) (steps : List SchemaStep) :
    ∃ c, f.runSteps steps
        = ((f.view.runSteps steps).1.map fun _ => (), f.withView c, (f.view.runSteps steps).2)
      ∧ ∀ d, (f.view.runSteps steps).1 = .ok d → c = d := by
  induction steps generalizing f with
  | nil => exact ⟨f.view, by rw [withView_view]; rfl, fun d h => Except.ok.inj h⟩
  | cons step steps ih =>
    obtain ⟨b, hstep, hb⟩ := f.exists_executeAll step.statements
    rw [step.foldlM_statements] at hstep hb
    rw [runSteps, Catalog.runSteps, hstep]
    cases hrun : step.run f.view with
    | error e => exact ⟨b, rfl, nofun⟩
    | ok d =>
      obtain rfl := hb d hrun
      obtain ⟨c, hrest, hc⟩ := ih (f.withView b)
      rw [view_withView, withView_withView] at hrest
      rw [view_withView] at hc
      refine ⟨c, ?_, hc⟩
      dsimp only [Except.map]
      rw [hrest]
      rfl

/-- Whatever was done in a transaction, the catalog of the file is left when it is rolled back. -/
theorem committed_rollback {work : Catalog} (h : f.work = some work) (c : Catalog) :
    (f.withView c).rollback = { committed := f.committed } := by
  unfold withView
  rw [h]
  rfl

/-- When it is committed, the file has what was done in it. -/
theorem commit_withView {work : Catalog} (h : f.work = some work) (c : Catalog) :
    (f.withView c).commit = (.ok (), { committed := c }) := by
  unfold withView
  rw [h]
  rfl

end SchemaFile

namespace Catalog

variable {c d : Catalog}

open SchemaStep (objectsOf)

/-! ## The steps that a catalog lacks -/

/-- The version after some steps from a version. -/
def versionAfter (version : Nat) (steps : List SchemaStep) : Nat :=
  (steps.getLast?.map SchemaStep.version).getD version

theorem version_after (h : 0 ≤ c.version) (steps : List SchemaStep) :
    (c.after steps).version = versionAfter c.version.toNat steps := by
  cases hlast : steps.getLast? with
  | none => simp [after, versionAfter, hlast, Int.toNat_of_nonneg h]
  | some step => simp [after, versionAfter, hlast]

theorem schemaSteps_sorted : schemaSteps.Pairwise fun s t => s.version < t.version := by
  decide

theorem version_le_latestVersion {step : SchemaStep} (h : step ∈ schemaSteps) :
    step.version ≤ latestVersion := by
  revert step
  decide

theorem pending_eq_nil_iff {version : Nat} : pending version = [] ↔ latestVersion ≤ version := by
  unfold pending
  rw [List.filter_eq_nil_iff]
  constructor
  · intro h
    obtain ⟨last, hlast, heq⟩ : ∃ last ∈ schemaSteps, last.version = latestVersion := by decide
    have := h last hlast
    simp only [decide_eq_true_eq] at this
    omega
  · intro h step hstep
    have := version_le_latestVersion hstep
    simp only [decide_eq_true_eq]
    omega

/-- A run of some of the steps that are lacking leaves the others. -/
theorem pending_of_append {version : Nat} {p q : List SchemaStep}
    (h : pending version = p ++ q) : pending (versionAfter version p) = q := by
  cases List.eq_nil_or_concat p with
  | inl hp =>
    subst hp
    exact h
  | inr hp =>
    obtain ⟨p, last, rfl⟩ := hp
    rw [List.concat_eq_append] at h ⊢
    have hlast : versionAfter version (p ++ [last]) = last.version := by
      simp [versionAfter]
    have hsorted : (p ++ [last] ++ q).Pairwise fun s t => s.version < t.version := by
      rw [← h]
      exact schemaSteps_sorted.filter _
    obtain ⟨hleft, _, hright⟩ := List.pairwise_append.1 hsorted
    have hmem : last ∈ pending version := by
      rw [h]
      simp
    have hlt : version < last.version := by
      simpa using (List.mem_filter.1 hmem).2
    -- What lies above the last step taken lies above the first version, so it is in both parts.
    calc pending (versionAfter version (p ++ [last]))
        = (pending version).filter fun step => last.version < step.version := by
          rw [hlast, pending, pending, List.filter_filter]
          refine List.filter_congr fun step _ => ?_
          simp only [Bool.and_eq_decide, decide_eq_true_eq, decide_eq_decide]
          omega
      _ = q := by
          rw [h, List.filter_append, List.filter_eq_nil_iff.2, List.nil_append,
            List.filter_eq_self.2]
          · intro step hstep
            simpa using hright last (by simp) step hstep
          · intro step hstep
            rw [List.mem_append, List.mem_singleton] at hstep
            cases hstep with
            | inl hstep =>
              have := (List.pairwise_append.1 hleft).2.2 step hstep last (by simp)
              simp only [decide_eq_true_eq]
              omega
            | inr hstep => simp [hstep]

theorem versionAfter_le {version : Nat} {steps : List SchemaStep} (h : version ≤ latestVersion)
    (hsteps : ∀ step ∈ steps, step ∈ schemaSteps) : versionAfter version steps ≤ latestVersion := by
  unfold versionAfter
  cases hlast : steps.getLast? with
  | none => exact h
  | some step => exact version_le_latestVersion (hsteps step (List.mem_of_getLast? hlast))

theorem versionAfter_pending {version : Nat} (h : version ≤ latestVersion) :
    versionAfter version (pending version) = latestVersion := by
  have hnil := pending_eq_nil_iff.1 (pending_of_append (List.append_nil (pending version)).symm)
  exact Nat.le_antisymm (versionAfter_le h fun _ => List.mem_of_mem_filter) hnil

/-! ## Bringing a catalog to the newest version -/

/-- The steps that the catalog lacks. -/
def lacking (c : Catalog) : List SchemaStep :=
  pending c.version.toNat

theorem mem_lacking_iff {step : SchemaStep} (h : 0 ≤ c.version) :
    step ∈ c.lacking ↔ step ∈ schemaSteps ∧ c.version < step.version := by
  unfold lacking pending
  rw [List.mem_filter, decide_eq_true_eq, Int.toNat_lt h]

/-- How bringing a catalog to the newest version ends, and in which catalog. -/
inductive Migrates (c : Catalog) : Except AccessError Unit → Catalog → Prop
  /-- The version is none. -/
  | negative (h : c.version < 0) : Migrates c (.error (.store (.numberOutOfRange c.version))) c
  /-- The version is from the future. -/
  | newer (h : latestVersion < c.version) :
    Migrates c (.error (.unsupportedVersion c.version.toNat latestVersion)) c
  /-- A step fails. -/
  | failed (hnonneg : 0 ≤ c.version) (hle : c.version ≤ latestVersion)
    (hroom : ¬ c.HasRoomFor (objectsOf c.lacking)) (e : StoreError) :
    Migrates c (.error (.store e)) c
  /-- All the steps that the catalog lacks are taken. -/
  | done (hnonneg : 0 ≤ c.version) (hle : c.version ≤ latestVersion)
    (hroom : c.HasRoomFor (objectsOf c.lacking)) :
    Migrates c (.ok ()) (c.after c.lacking)

/-- Bringing a file to the newest version leaves no transaction. -/
theorem exists_migrates (c : Catalog) : ∃ d, c.Migrates c.migrate.1 d
    ∧ (SchemaFile.migrate { committed := c }).2.1 = { committed := d } := by
  have hview : (SchemaFile.mk c none).view = c := rfl
  unfold migrate SchemaFile.migrate
  rw [hview]
  by_cases hneg : c.version < 0
  · rw [if_pos hneg]
    exact ⟨c, .negative hneg, rfl⟩
  by_cases hnew : latestVersion < c.version.toNat
  · rw [if_neg hneg, if_pos hnew]
    exact ⟨c, .newer (by omega), rfl⟩
  have hnonneg : 0 ≤ c.version := by omega
  have hle : c.version ≤ latestVersion := by omega
  rw [if_neg hneg, if_neg hnew]
  by_cases hempty : (pending c.version.toNat).isEmpty = true
  · have hlacking : c.lacking = [] := List.isEmpty_iff.1 hempty
    rw [if_pos hempty]
    refine ⟨c, ?_, rfl⟩
    have hdone : Migrates c (.ok ()) (c.after c.lacking) := by
      refine .done hnonneg hle ?_
      rw [hlacking]
      exact ⟨nofun, .nil⟩
    rwa [hlacking, after_nil] at hdone
  · rw [if_neg hempty]
    -- in the transaction the steps are taken from the catalog of the file
    have hbegin : (SchemaFile.mk c none).begin = (.ok (), ⟨c, some c⟩) := rfl
    rw [hbegin]
    dsimp only
    obtain ⟨w, hsteps, hw⟩ := SchemaFile.exists_runSteps ⟨c, some c⟩ (pending c.version.toNat)
    rw [hsteps]
    have htransaction : (SchemaFile.mk c (some c)).view = c := rfl
    rw [htransaction] at hw ⊢
    cases hrun : (c.runSteps (pending c.version.toNat)).1 with
    | error e =>
      have hroom : ¬ c.HasRoomFor (objectsOf c.lacking) := fun hroom =>
        nomatch (runSteps_eq_ok_iff.2 ⟨hroom, rfl⟩).symm.trans hrun
      exact ⟨c, .failed hnonneg hle hroom e, SchemaFile.committed_rollback rfl w⟩
    | ok d =>
      obtain rfl := hw d hrun
      obtain ⟨hroom, rfl⟩ := runSteps_eq_ok_iff.1 hrun
      dsimp only [Except.map]
      rw [SchemaFile.commit_withView rfl]
      exact ⟨_, .done hnonneg hle hroom, rfl⟩

theorem migrates (c : Catalog) : c.Migrates c.migrate.1 c.migrate.2.1 := by
  obtain ⟨d, hmigrates, hfile⟩ := c.exists_migrates
  have hcatalog : c.migrate.2.1 = d := congrArg SchemaFile.committed hfile
  rwa [hcatalog]

/-- What the file has in the end is all that there is: the transaction is over. -/
theorem work_migrate (c : Catalog) : (SchemaFile.migrate { committed := c }).2.1.work = none := by
  obtain ⟨d, _, hfile⟩ := c.exists_migrates
  rw [hfile]

/-! ## All steps or none -/

/-- The catalog after so many runs of the migration. -/
def rerun (c : Catalog) : Nat → Catalog
  | 0 => c
  | n + 1 => (c.rerun n).migrate.2.1

/-- The second catalog is the first one with what it lacked. -/
structure IsUpgrade (c d : Catalog) : Prop where
  /-- It has the newest version. -/
  version : d.version = latestVersion
  /-- The objects of all steps above the old version were made. -/
  made : ∀ step ∈ schemaSteps, c.version < step.version → ∀ o ∈ step.objects, d.Has o
  /-- The old tables are there with their rows. -/
  tables : c.tables <+: d.tables
  /-- The old indexes are there. -/
  indexes : c.indexes <+: d.indexes

/-- Bringing a catalog to the newest version takes all the steps that it lacks or none, and may be
repeated, or resumed after some of the steps. -/
structure AllOrNone (c : Catalog) : Prop where
  /-- It succeeds if the version is not newer than the last step and all the names are free. -/
  succeeds_iff : c.migrate.1 = .ok () ↔
    0 ≤ c.version ∧ c.version ≤ latestVersion ∧
      ∀ step ∈ schemaSteps, c.version < step.version → ∀ o ∈ step.objects, c.IsFree o.name
  /-- Then the catalog has all that it lacked. -/
  upgraded : c.migrate.1 = .ok () → c.IsUpgrade c.migrate.2.1
  /-- Otherwise it is as it was. -/
  unchanged : ∀ e, c.migrate.1 = .error e → c.migrate.2.1 = c
  /-- In either case no transaction is left. -/
  closed : (SchemaFile.migrate { committed := c }).2.1.work = none
  /-- A version is unsupported exactly if it is newer than the last step. -/
  newer_iff : ∀ found supported, c.migrate.1 = .error (.unsupportedVersion found supported) ↔
    latestVersion < c.version ∧ (found : Int) = c.version ∧ supported = latestVersion
  /-- Nothing is done to a catalog of the newest version. -/
  newest : c.version = latestVersion → c.migrate.1 = .ok () ∧ c.migrate.2.1 = c
  /-- Each further run ends as the first one did. -/
  repeats : ∀ n, (c.rerun n).migrate.1 = c.migrate.1 ∧ (c.rerun n).migrate.2.1 = c.migrate.2.1
  /-- If all the steps can be taken, so can some first and the others later. -/
  resumes : ∀ p q, c.migrate.1 = .ok () → c.lacking = p ++ q →
    ∃ d, (c.runSteps p).1 = .ok d ∧ d.migrate.1 = .ok () ∧ d.migrate.2.1 = c.migrate.2.1
      ∧ ∃ events, SchemaFile.runSteps { committed := c } p = (.ok (), { committed := d }, events)

theorem migrate_eq_ok_iff : c.migrate.1 = .ok () ↔
    0 ≤ c.version ∧ c.version ≤ latestVersion ∧ c.HasRoomFor (objectsOf c.lacking) := by
  have h := migrates c
  generalize c.migrate.1 = result at h
  generalize c.migrate.2.1 = d at h
  cases h with
  | negative h => exact iff_of_false nofun fun h' => by omega
  | newer h => exact iff_of_false nofun fun h' => by omega
  | failed _ _ hroom => exact iff_of_false nofun fun h' => hroom h'.2.2
  | done hnonneg hle hroom => exact iff_of_true rfl ⟨hnonneg, hle, hroom⟩

theorem migrate_eq_unsupported_iff {found supported : Nat} :
    c.migrate.1 = .error (.unsupportedVersion found supported) ↔
      latestVersion < c.version ∧ (found : Int) = c.version ∧ supported = latestVersion := by
  have h := migrates c
  generalize c.migrate.1 = result at h
  generalize c.migrate.2.1 = d at h
  cases h with
  | negative h => exact iff_of_false nofun fun h' => by omega
  | failed _ hle => exact iff_of_false nofun fun h' => by omega
  | done _ hle => exact iff_of_false nofun fun h' => by omega
  | newer h =>
    rw [Except.error.injEq, AccessError.unsupportedVersion.injEq]
    omega

theorem eq_after_of_migrate_ok (h : c.migrate.1 = .ok ()) : c.migrate.2.1 = c.after c.lacking := by
  have hm := migrates c
  generalize c.migrate.2.1 = d at hm
  rw [h] at hm
  cases hm
  rfl

theorem eq_of_migrate_error {e : AccessError} (h : c.migrate.1 = .error e) :
    c.migrate.2.1 = c := by
  have hm := migrates c
  generalize c.migrate.2.1 = d at hm
  rw [h] at hm
  cases hm <;> rfl

/-- The steps make objects of different names, whichever of them are lacking. -/
theorem hasRoomFor_lacking_iff (h : 0 ≤ c.version) :
    c.HasRoomFor (objectsOf c.lacking) ↔
      ∀ step ∈ schemaSteps, c.version < step.version → ∀ o ∈ step.objects, c.IsFree o.name := by
  have hdiffer : (objectsOf c.lacking).Pairwise SchemaObject.Differ := by
    have hall : (objectsOf schemaSteps).Pairwise SchemaObject.Differ := by decide +kernel
    exact hall.sublist (List.filter_sublist.flatMap _)
  unfold HasRoomFor
  rw [and_iff_left hdiffer]
  unfold objectsOf
  simp only [List.mem_flatMap, mem_lacking_iff h]
  constructor
  · intro hfree step hstep hlt o ho
    exact hfree o ⟨step, ⟨hstep, hlt⟩, ho⟩
  · intro hfree o ⟨step, ⟨hstep, hlt⟩, ho⟩
    exact hfree step hstep hlt o ho

theorem has_extend {o : SchemaObject} {os : List SchemaObject} (h : o ∈ os) :
    (c.extend os).Has o := by
  cases o with
  | table name =>
    exact List.mem_append_right _ (List.mem_filterMap.2 ⟨.table name, h, rfl⟩)
  | index name =>
    exact List.mem_append_right _ (List.mem_filterMap.2 ⟨.index name, h, rfl⟩)

theorem version_after_lacking (hnonneg : 0 ≤ c.version) (hle : c.version ≤ latestVersion) :
    (c.after c.lacking).version = latestVersion := by
  rw [version_after hnonneg, lacking, versionAfter_pending (by omega)]

theorem isUpgrade_after (hnonneg : 0 ≤ c.version) (hle : c.version ≤ latestVersion) :
    c.IsUpgrade (c.after c.lacking) where
  version := version_after_lacking hnonneg hle
  made step hstep hlt _ ho :=
    has_extend (List.mem_flatMap.2 ⟨step, (mem_lacking_iff hnonneg).2 ⟨hstep, hlt⟩, ho⟩)
  tables := List.prefix_append _ _
  indexes := List.prefix_append _ _

theorem migrate_of_newest (h : c.version = latestVersion) :
    c.migrate.1 = .ok () ∧ c.migrate.2.1 = c := by
  have hlacking : c.lacking = [] := pending_eq_nil_iff.2 (by omega)
  have hok : c.migrate.1 = .ok () := by
    refine migrate_eq_ok_iff.2 ⟨by omega, by omega, ?_⟩
    rw [hlacking]
    exact ⟨nofun, .nil⟩
  rw [eq_after_of_migrate_ok hok, hlacking, after_nil]
  exact ⟨hok, rfl⟩

/-- One run more changes nothing, and ends as the one before. -/
theorem migrate_migrate :
    c.migrate.2.1.migrate.1 = c.migrate.1 ∧ c.migrate.2.1.migrate.2.1 = c.migrate.2.1 := by
  cases hresult : c.migrate.1 with
  | error e =>
    rw [eq_of_migrate_error hresult]
    exact ⟨hresult, eq_of_migrate_error hresult⟩
  | ok =>
    obtain ⟨hnonneg, hle, _⟩ := migrate_eq_ok_iff.1 hresult
    apply migrate_of_newest
    rw [eq_after_of_migrate_ok hresult]
    exact version_after_lacking hnonneg hle

theorem migrate_rerun (n : Nat) :
    (c.rerun n).migrate.1 = c.migrate.1 ∧ (c.rerun n).migrate.2.1 = c.migrate.2.1 := by
  induction n with
  | zero => exact ⟨rfl, rfl⟩
  | succ n ih =>
    obtain ⟨hresult, hcatalog⟩ := ih
    have hmore := migrate_migrate (c := c.rerun n)
    exact ⟨hmore.1.trans hresult, hmore.2.trans hcatalog⟩

/-- After the first of the steps that are lacking the others are lacking still. -/
theorem migrate_resumed {p q : List SchemaStep} (h : c.migrate.1 = .ok ())
    (hlacking : c.lacking = p ++ q) :
    (c.runSteps p).1 = .ok (c.after p) ∧ (c.after p).migrate.1 = .ok () ∧
      (c.after p).migrate.2.1 = c.migrate.2.1 := by
  obtain ⟨hnonneg, hle, hroom⟩ := migrate_eq_ok_iff.1 h
  rw [hlacking, hasRoomFor_objectsOf_append] at hroom
  obtain ⟨hfirst, hrest⟩ := hroom
  have hversion := version_after hnonneg p
  have hnext : (c.after p).lacking = q := by
    rw [lacking, hversion, Int.toNat_natCast]
    exact pending_of_append hlacking
  have hok : (c.after p).migrate.1 = .ok () := by
    refine migrate_eq_ok_iff.2 ⟨?_, ?_, ?_⟩
    · rw [hversion]
      exact Int.natCast_nonneg _
    · rw [hversion]
      have hmem : ∀ step ∈ p, step ∈ schemaSteps := by
        intro step hstep
        have : step ∈ c.lacking := by
          rw [hlacking]
          exact List.mem_append_left _ hstep
        exact ((mem_lacking_iff hnonneg).1 this).1
      exact_mod_cast versionAfter_le (by omega) hmem
    · rw [hnext]
      exact hrest
  refine ⟨runSteps_eq_ok_iff.2 ⟨hfirst, rfl⟩, hok, ?_⟩
  rw [eq_after_of_migrate_ok hok, eq_after_of_migrate_ok h, hnext, hlacking, after_append]

theorem migrate_all_or_none (c : Catalog) : c.AllOrNone where
  succeeds_iff := by
    rw [migrate_eq_ok_iff]
    refine and_congr_right fun hnonneg => ?_
    rw [hasRoomFor_lacking_iff hnonneg]
  upgraded h := by
    obtain ⟨hnonneg, hle, _⟩ := migrate_eq_ok_iff.1 h
    rw [eq_after_of_migrate_ok h]
    exact isUpgrade_after hnonneg hle
  unchanged e := eq_of_migrate_error
  closed := c.work_migrate
  newer_iff found supported := migrate_eq_unsupported_iff
  newest := migrate_of_newest
  repeats := migrate_rerun
  resumes p q h hlacking := by
    obtain ⟨hfirst, hok, hsame⟩ := migrate_resumed h hlacking
    have hview : (SchemaFile.mk c none).view = c := rfl
    obtain ⟨d, hfile, hd⟩ := SchemaFile.exists_runSteps ⟨c, none⟩ p
    rw [hview] at hfile hd
    obtain rfl := hd _ hfirst
    rw [hfirst] at hfile
    exact ⟨_, hfirst, hok, hsame, _, hfile⟩

/-- A name that the second step needs is taken, so the first step is not kept either. -/
example :
    let c : Catalog := { indexes := ["IDX_expressions_cluster_service"] }
    c.migrate.1 = .error (.store (.objectExists "index" "idx_expressions_cluster_service")) ∧
      c.migrate.2.1 = c := by
  decide +kernel

end Catalog

end AlertRegistry
