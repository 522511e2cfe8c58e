import AlertRegistry.Proofs.Record
import AlertRegistry.Repository.Basic

/-!
# Operations of a repository

What each operation of an open repository answers, and which rows are kept after it, if the
connection has the store to itself and nothing is begun (`Ready`). The rows are those of any kind of
lawful records; none of the proofs goes back to statements or tuples.
-/

namespace AlertRegistry

open StoredRecord (Keeps Admits)

variable {α ρ γ : Type} [Record α ρ γ]

namespace Repository

variable {s : Store} {r : Repository α}

theorem whenOpen_of_opened {β : Type} (ho : r.state = .opened) (operation : Operation)
    (carryOn : Unit → Reply β) : r.whenOpen operation s carryOn = carryOn () := by
  unfold whenOpen requireOpen
  rw [if_pos ho]

theorem whenSound_of_sound {β : Type} (h : s.poisoned = false) (events : List Event)
    (carryOn : Unit → Reply β) : whenSound s events carryOn = carryOn () := by
  unfold whenSound
  rw [h]
  rfl

/-- The line about a row that denotes no record. -/
def dropReport (α : Type) {ρ γ : Type} [Record α ρ γ] (row : ρ) : Option Event :=
  match (Record.ofRow row : Except RowError α) with
  | .ok _ => none
  | .error e =>
    some (report α .error "decode" "error" [("error_code", "deserialization_failed"),
      idField α (Record.key α row), ("error", (RepositoryError.row e).message)])

theorem decode_eq (row : ρ) :
    (decode row : Option α × List Event)
      = ((Record.ofRow row).toOption, (dropReport α row).toList) := by
  unfold decode dropReport
  cases (Record.ofRow row : Except RowError α) <;> rfl

/-- A page is decoded row by row, and a row that denotes no record is reported instead. -/
theorem decodePage_eq (page : Page ρ) :
    (decodePage page : QueryResult α × List Event)
      = ({ values := page.rows.filterMap fun row => (Record.ofRow row).toOption
           total := page.total
           etag := Page.etag α page },
        page.rows.filterMap (dropReport α)) := by
  unfold decodePage
  simp only [List.flatMap_map, List.filterMap_eq_flatMap_toList, decode_eq]

/-- The records of a page are those that its rows denote. -/
theorem values_decodePage (page : Page ρ) :
    (decodePage page : QueryResult α × List Event).1.values
      = page.rows.filterMap fun row => (Record.ofRow row).toOption := by
  rw [decodePage_eq]

/-- No query changes the store. -/
theorem query_store [Layout γ] (h : s.Alone) (r : Repository α) (q : BoundQuery) :
    (r.query q s).store = s := by
  unfold query whenOpen
  cases r.requireOpen .query with
  | error e => rfl
  | ok =>
    dsimp only
    split
    · rfl
    · rw [whenSound_of_sound h.sound, h.read_eq]
      cases fetchPage α r.strategy q.query s.view <;> rfl

end Repository

variable [Layout γ] [StoredRecord α ρ γ] [LawfulRecord α ρ γ]

/-- The connection has the store to itself, nothing is begun, and the rows are kept. -/
structure Ready (α : Type) {ρ γ : Type} [Record α ρ γ] [StoredRecord α ρ γ] (s : Store)
    (rows : List ρ) : Prop extends s.Idle where
  /-- The rows are kept. -/
  keeps : Keeps α s.committed rows
  /-- Nothing is rejected. -/
  admits : Admits α s.committed

omit [Layout γ] [LawfulRecord α ρ γ] in
/-- What is put in sight of an idle connection is committed. -/
theorem Ready.of_idle {s : Store} {db : Database} {rows : List ρ} (h : s.Idle)
    (hkeeps : Keeps α db rows) (hadmits : Admits α db) : Ready α (s.withView db) rows := by
  have hcommitted : (s.withView db).committed = db := by
    rw [← (h.withView db).view_eq, h.view_withView]
  exact {
    toIdle := h.withView db
    keeps := hcommitted.symm ▸ hkeeps
    admits := hcommitted.symm ▸ hadmits }

namespace Repository

variable {s : Store} {rows : List ρ} {r : Repository α}

/-- What is found under a key is what the row there denotes, and a row that denotes nothing is
reported. -/
theorem get_reply (hs : s.Idle) (hkeeps : Keeps α s.committed rows) (ho : r.state = .opened)
    (id : Uuid) :
    r.get id s
      = { result := .ok ((rowAt α (toString id) rows).bind fun row => (Record.ofRow row).toOption)
          store := s
          events := report α .debug "get" "start" [idField α (toString id)]
            :: ((rowAt α (toString id) rows).bind (dropReport α)).toList } := by
  rw [← hs.view_eq] at hkeeps
  unfold get
  rw [whenOpen_of_opened ho]
  dsimp only
  rw [whenSound_of_sound hs.sound, hs.read_eq, findRow_eq hkeeps]
  cases rowAt α (toString id) rows with
  | none => rfl
  | some row =>
    dsimp only [Option.bind_some]
    rw [decode_eq]
    rfl

/-- A record is what the row under its key denotes. -/
theorem get_spec (h : Ready α s rows) (ho : r.state = .opened) (id : Uuid) :
    (r.get id s).result
        = .ok ((rowAt α (toString id) rows).bind fun row => (Record.ofRow row).toOption)
      ∧ (r.get id s).store = s := by
  rw [get_reply h.toIdle h.keeps ho]
  exact ⟨rfl, rfl⟩

theorem count_spec (h : Ready α s rows) (ho : r.state = .opened) :
    (r.count s).result = .ok rows.length ∧ (r.count s).store = s := by
  have hkeeps : Keeps α s.view rows := h.view_eq ▸ h.keeps
  unfold count
  rw [whenOpen_of_opened ho, whenSound_of_sound h.sound, h.read_eq, countRows_eq hkeeps]
  exact ⟨rfl, rfl⟩

omit [Layout γ] [StoredRecord α ρ γ] [LawfulRecord α ρ γ] in
/-- A query that this repository made is answered with what the rows of the page denote, and the
other rows on it are reported. -/
theorem query_reply (hs : s.Alone) (ho : r.state = .opened) {q : BoundQuery}
    (hb : q.owner = r.identity) {page : Page ρ}
    (hpage : fetchPage α r.strategy q.query s.view = .ok page) {result : QueryResult α}
    {reports : List Event} (hdecode : decodePage page = (result, reports)) :
    r.query q s
      = { result := .ok result
          store := s
          events := [report α .debug "query" "start" [("query", Record.describe α q.query)]]
            ++ reports ++ queryReport result } := by
  unfold query
  rw [whenOpen_of_opened ho, if_neg (not_not.2 hb)]
  dsimp only
  rw [whenSound_of_sound hs.sound, hs.read_eq, hpage]
  dsimp only
  rw [hdecode]

/-- A query for all records that this repository made returns what the rows of the page denote. -/
theorem query_spec (h : Ready α s rows) (ho : r.state = .opened) {q : BoundQuery}
    (hb : q.owner = r.identity) (hq : q.query.IsUnfiltered) :
    ∃ found, (r.query q s).result = .ok found
      ∧ found.values = (slice q.query.offset q.query.limit rows).filterMap
        (fun row => (Record.ofRow row).toOption)
      ∧ found.total = rows.length := by
  have hkeeps : Keeps α s.view rows := h.view_eq ▸ h.keeps
  rw [query_reply h.toAlone ho hb (fetchPage_eq hkeeps r.strategy hq) (decodePage_eq _)]
  exact ⟨_, rfl, rfl, rfl⟩

/-- A record with a row is written over the one with its identifier, or as a new one. -/
theorem upsert_spec (h : Ready α s rows) (ho : r.state = .opened) (now : Int) {a : α} {row : ρ}
    (ha : Record.toRow a = .ok row) (hmax : ∀ u ∈ rows, Record.version α u < Text.maxInt64) :
    (r.upsert now a s).result
        = .ok (if Record.key α row ∈ rows.map (Record.key α) then .updated else .created)
      ∧ Ready α (r.upsert now a s).store (Keyed.put (Record.key α)
        (writtenOver α now row (rowAt α (Record.key α row) rows)) rows) := by
  -- inside the transaction the rows are those that were committed
  let begun : Store := { s with transaction := .writing s.committed false }
  have hkeeps : Keeps α begun.view rows := h.keeps
  obtain ⟨db', hsave, hadmits', hkeeps'⟩ :=
    save_eq now row h.begun hkeeps h.admits hmax
  have hcommit : saveAndCommit α now (Record.withVersion α row
      (((rowAt α (Record.key α row) rows).map (Record.version α)).getD 0)) begun
      = (.ok (), s.withView db') := by
    have hdone : (begun.withView db').commitOrAbort = (.ok (), s.withView db') :=
      h.commitOrAbort_eq db' false
    unfold saveAndCommit
    rw [hsave]
    dsimp only
    rw [hdone]
  -- each step of the upsert in turn: the row, `begin`, the stored version, saving and the commit
  unfold upsert
  rw [whenOpen_of_opened ho]
  dsimp only
  rw [ha]
  dsimp only
  rw [whenSound_of_sound h.sound, h.begin_eq]
  dsimp only
  rw [h.begun.read_eq, storedVersion_eq hkeeps]
  dsimp only
  rw [hcommit]
  refine ⟨?_, .of_idle h.toIdle hkeeps' hadmits'⟩
  rw [Option.isSome_map]
  by_cases hmem : Record.key α row ∈ rows.map (Record.key α)
  · rw [if_pos hmem, if_pos ((rowAt_isSome α).2 hmem)]
  · rw [if_neg hmem, if_neg fun hsome => hmem ((rowAt_isSome α).1 hsome)]

/-- What was written is read back, through whichever repository. -/
theorem get_upsert (h : Ready α s rows) (ho : r.state = .opened) {r' : Repository α}
    (ho' : r'.state = .opened) (now : Int) {a b : α} {row : ρ} (ha : Record.toRow a = .ok row)
    (hb : Record.ofRow row = .ok b) (hmax : ∀ u ∈ rows, Record.version α u < Text.maxInt64) :
    (r'.get (Record.id a) (r.upsert now a s).store).result = .ok (some b) := by
  let written := writtenOver α now row (rowAt α (Record.key α row) rows)
  have hput : rowAt α (Record.key α row) (Keyed.put (Record.key α) written rows)
      = some written := by
    rw [← key_writtenOver now row (rowAt α (Record.key α row) rows)]
    exact rowAt_put_self
  rw [(get_spec (upsert_spec h ho now ha hmax).2 ho' _).1, ← LawfulRecord.key_toRow ha, hput,
    Option.bind_some, ofRow_writtenOver, hb]
  rfl

/-- All records are removed and counted. -/
theorem clear_spec (h : Ready α s rows) (ho : r.state = .opened) :
    (r.clear s).result = .ok rows.length ∧ Ready α (r.clear s).store [] := by
  let begun : Store := { s with transaction := .writing s.committed false }
  have hkeeps : Keeps α begun.view rows := h.keeps
  obtain ⟨count, db₁, db₂, hbeside, hclear, hadmits', hkeeps'⟩ :=
    LawfulRecord.clear_eq h.begun hkeeps h.admits
  have hcommit : (begun.withView db₂).commitOrAbort = (.ok (), s.withView db₂) :=
    h.commitOrAbort_eq db₂ false
  unfold clear
  rw [whenOpen_of_opened ho]
  dsimp only
  rw [whenSound_of_sound h.sound, h.begin_eq]
  dsimp only
  rw [hbeside]
  dsimp only
  rw [hclear]
  dsimp only
  rw [hcommit]
  exact ⟨rfl, .of_idle h.toIdle hkeeps' hadmits'⟩

end Repository

end AlertRegistry
