import AlertRegistry.Proofs.Connections
import AlertRegistry.Proofs.Repository.Frame
import AlertRegistry.Proofs.Repository.Run

/-!
# Rows tell how they were written

An attempt to write a record, or to remove all of them, goes through a repository in any state while
others hold any locks, so it may succeed or fail. A log lists the accepted writes since the last
removal, each with its time. The rows of a store tell what is in the log (`TellsWrites`): a version
is the number of writes, the first stamp is the time of the first one, and all else is what the last
one wrote.

The rows are those that the writes in the log leave (`Audited`): a write that is accepted preserves
that (`Audited.put`), and so does an attempt (`KeepsLog.run`).
-/

namespace AlertRegistry

open StoredRecord (Keeps Admits stamp)

section

variable {α ρ γ : Type} [Record α ρ γ]

/-! ## Attempts -/

/-- What is attempted. -/
inductive Write (α : Type) where
  /-- Creates or replaces a record at a time. -/
  | upsert (now : Int) (a : α)
  /-- Removes all records. -/
  | clear

/-- An attempt to write, which may fail. -/
structure Attempt (α : Type) where
  /-- The repository, in whichever state. -/
  repository : Repository α
  /-- The other connections to the store, whose locks may stand in the way. -/
  peers : List Store
  /-- What is attempted. -/
  write : Write α

namespace Attempt

/-- The store as the attempt finds it. -/
def meet (x : Attempt α) (s : Store) : Store :=
  { s with others := Store.locks x.peers }

/-- The log and the store after the attempt: a write that succeeds is logged, and a removal that
does empties the log. -/
def run [Layout γ] (x : Attempt α) (log : List (Int × α)) (s : Store) :
    List (Int × α) × Store :=
  match x.write with
  | .upsert now a =>
    let reply := x.repository.upsert now a (x.meet s)
    match reply.result with
    | .ok _ => (log ++ [(now, a)], reply.store)
    | .error _ => (log, reply.store)
  | .clear =>
    let reply := x.repository.clear (x.meet s)
    match reply.result with
    | .ok _ => ([], reply.store)
    | .error _ => (log, reply.store)

end Attempt

/-! ## Rows of a log -/

/-- The writes of the record with an identifier. -/
def writesOf (log : List (Int × α)) (id : Uuid) : List (Int × α) :=
  log.filter fun w => Record.id w.2 = id

/-- The row that is left after writes of one record. -/
def auditRow [StoredRecord α ρ γ] (ws : List (Int × α)) : Option ρ :=
  match ws.head?, ws.getLast? with
  | some first, some last =>
    (Record.toRow last.2).toOption.map fun row =>
      stamp α row ws.length first.1 (max first.1 last.1)
  | _, _ => none

/-- The row tells how often the record was written, when it was written first, and what was written
last. -/
structure TellsOf [StoredRecord α ρ γ] (ws : List (Int × α)) (r : ρ) : Prop where
  /-- The version counts the writes. -/
  version : Record.version α r = ws.length
  /-- There was one. -/
  one_le : 1 ≤ Record.version α r
  /-- The first stamp is the time of the first write. -/
  createdAt : ∃ first, ws.head? = some first ∧ (Record.stamps α r).1 = first.1
  /-- The stamps are in order. -/
  ordered : (Record.stamps α r).1 ≤ (Record.stamps α r).2
  /-- All else is from the last write; the second stamp is its time, unless the clock has gone back
  behind the first one. -/
  last : ∃ last row, ws.getLast? = some last ∧ Record.toRow last.2 = .ok row
    ∧ (Record.stamps α r).2 = max (Record.stamps α r).1 last.1
    ∧ r = stamp α row (Record.version α r) (Record.stamps α r).1 (Record.stamps α r).2

/-- The rows tell what is in the log: there is one for each identifier that was written, under the
text of the identifier. -/
structure TellsWrites [StoredRecord α ρ γ] (log : List (Int × α)) (rows : List ρ) : Prop where
  /-- Keys are distinct. -/
  nodup : (rows.map (Record.key α)).Nodup
  /-- Every row is one of a record that was written. -/
  row (r : ρ) : r ∈ rows →
    ∃ id : Uuid, Record.key α r = toString id ∧ TellsOf (writesOf log id) r
  /-- Every record that was written has a row. -/
  written (w : Int × α) : w ∈ log → toString (Record.id w.2) ∈ rows.map (Record.key α)

/-- Every record in the log has the row that its writes leave, and there are no other rows. -/
structure Audited [StoredRecord α ρ γ] (log : List (Int × α)) (rows : List ρ) : Prop where
  /-- Writes were accepted. -/
  accepted : ∀ w ∈ log, Accepted w.2
  /-- Keys are texts of identifiers. -/
  canonical : ∀ r ∈ rows, ∃ id : Uuid, Record.key α r = toString id
  /-- The rows are those of the log. -/
  rowAt (id : Uuid) : rowAt α (toString id) rows = auditRow (writesOf log id)

theorem writesOf_append_self (log : List (Int × α)) (now : Int) (a : α) :
    writesOf (log ++ [(now, a)]) (Record.id a) = writesOf log (Record.id a) ++ [(now, a)] := by
  unfold writesOf
  simp

theorem writesOf_append_of_ne (log : List (Int × α)) (now : Int) {a : α} {id : Uuid}
    (h : Record.id a ≠ id) : writesOf (log ++ [(now, a)]) id = writesOf log id := by
  unfold writesOf
  simp [h]

variable [Layout γ] [StoredRecord α ρ γ] [LawfulRecord α ρ γ]

/-- One more write is written over what the others have left. -/
theorem auditRow_append {ws : List (Int × α)} (hws : ∀ w ∈ ws, Accepted w.2) (now : Int) {a : α}
    {row : ρ} (ha : Record.toRow a = .ok row) :
    auditRow (ws ++ [(now, a)]) = some (writtenOver α now row (auditRow ws)) := by
  cases ws with
  | nil =>
    unfold auditRow
    simp [ha, Except.toOption, writtenOver]
  | cons first rest =>
    obtain ⟨row₀, h₀⟩ := hws _ (List.getLast_mem (List.cons_ne_nil first rest))
    have hold : auditRow (first :: rest) = some (stamp α row₀ (first :: rest).length first.1
        (max first.1 ((first :: rest).getLast (List.cons_ne_nil first rest)).1)) := by
      unfold auditRow
      rw [List.head?_cons, List.getLast?_eq_getLast_of_ne_nil (List.cons_ne_nil first rest)]
      simp only [h₀, Except.toOption, Option.map_some]
    rw [hold]
    unfold auditRow writtenOver
    rw [List.getLast?_append]
    simp [ha, Except.toOption, LawfulRecord.version_stamp, LawfulRecord.stamps_stamp]

omit [Layout γ] [LawfulRecord α ρ γ] in
theorem auditRow_eq_some {ws : List (Int × α)} {r : ρ} (h : auditRow ws = some r) :
    ∃ first last row, ws.head? = some first ∧ ws.getLast? = some last
      ∧ Record.toRow last.2 = .ok row ∧ r = stamp α row ws.length first.1 (max first.1 last.1) := by
  unfold auditRow at h
  split at h
  · next first last hfirst hlast =>
    obtain ⟨row, hrow, rfl⟩ := Option.map_eq_some_iff.1 h
    refine ⟨first, last, row, hfirst, hlast, ?_, rfl⟩
    cases ha : (Record.toRow last.2 : Except RecordError ρ) with
    | error e =>
      rw [ha] at hrow
      cases hrow
    | ok row' =>
      rw [ha] at hrow
      cases hrow
      rfl
  · cases h

theorem tellsOf_auditRow {ws : List (Int × α)} {r : ρ} (h : auditRow ws = some r) :
    TellsOf ws r := by
  obtain ⟨first, last, row, hfirst, hlast, hrow, rfl⟩ := auditRow_eq_some h
  have hpos : 0 < ws.length := List.length_pos_of_mem (List.mem_of_mem_head? hfirst)
  refine {
    version := LawfulRecord.version_stamp ..
    one_le := ?_
    createdAt := ⟨first, hfirst, ?_⟩
    ordered := ?_
    last := ⟨last, row, hlast, hrow, ?_, ?_⟩ }
  · rw [LawfulRecord.version_stamp]
    omega
  · rw [LawfulRecord.stamps_stamp]
  · rw [LawfulRecord.stamps_stamp]
    exact Int.le_max_left _ _
  · rw [LawfulRecord.stamps_stamp]
  · rw [LawfulRecord.version_stamp, LawfulRecord.stamps_stamp]

namespace Audited

variable {log : List (Int × α)} {rows : List ρ}

omit [Layout γ] [LawfulRecord α ρ γ] in
theorem nil : Audited ([] : List (Int × α)) ([] : List ρ) where
  accepted := by simp
  canonical := by simp
  rowAt _ := rfl

/-- A row is what the writes under its key have left. -/
theorem auditRow_of_mem (h : Audited log rows) {db : Database} (hk : Keeps α db rows) {r : ρ}
    (hr : r ∈ rows) {id : Uuid} (hid : Record.key α r = toString id) :
    auditRow (writesOf log id) = some r := by
  rw [← h.rowAt id]
  exact (rowAt_eq_some_iff hk).2 ⟨hr, hid⟩

theorem tellsWrites (h : Audited log rows) {db : Database} (hk : Keeps α db rows) :
    TellsWrites log rows where
  nodup := LawfulRecord.nodup hk
  row r hr := by
    obtain ⟨id, hid⟩ := h.canonical r hr
    exact ⟨id, hid, tellsOf_auditRow (h.auditRow_of_mem hk hr hid)⟩
  written w hw := by
    have hmem : w ∈ writesOf log (Record.id w.2) := List.mem_filter.2 ⟨hw, by simp⟩
    rw [← rowAt_isSome, h.rowAt]
    -- the last write of the record was accepted, so it has left a row
    obtain ⟨row, hrow⟩ := h.accepted _
      (List.mem_of_mem_filter (List.getLast_mem (List.ne_nil_of_mem hmem)))
    unfold auditRow
    rw [List.head?_eq_some_head (List.ne_nil_of_mem hmem),
      List.getLast?_eq_getLast_of_ne_nil (List.ne_nil_of_mem hmem)]
    simp [hrow, Except.toOption]

/-- There is room for as many writes as there can be in a log. -/
theorem version_lt (h : Audited log rows) {db : Database} (hk : Keeps α db rows)
    (hlen : log.length < 2 ^ 63 - 1) : ∀ r ∈ rows, Record.version α r < Text.maxInt64 := by
  intro r hr
  obtain ⟨id, hid⟩ := h.canonical r hr
  have hversion := (tellsOf_auditRow (h.auditRow_of_mem hk hr hid)).version
  have hle : (writesOf log id).length ≤ log.length := List.length_filter_le ..
  unfold Text.maxInt64
  omega

/-- A record that is written has the row that was written over its old one; all others keep theirs.
-/
theorem put (h : Audited log rows) (now : Int) {a : α} {row : ρ} (ha : Record.toRow a = .ok row) :
    Audited (log ++ [(now, a)]) (Keyed.put (Record.key α)
      (writtenOver α now row (AlertRegistry.rowAt α (Record.key α row) rows)) rows) := by
  have hkey : Record.key α row = toString (Record.id a) := LawfulRecord.key_toRow ha
  generalize hw : writtenOver α now row (AlertRegistry.rowAt α (Record.key α row) rows) = w
  have hwritten : Record.key α w = toString (Record.id a) := by
    rw [← hw, key_writtenOver, hkey]
  refine ⟨?_, ?_, ?_⟩
  · exact List.forall_mem_append.2 ⟨h.accepted, by simpa using ⟨row, ha⟩⟩
  · intro r hr
    rcases Keyed.mem_put hr with rfl | hr
    · exact ⟨_, hwritten⟩
    · exact h.canonical r hr
  · intro id
    by_cases hid : Record.id a = id
    · subst hid
      have haccepted : ∀ w ∈ writesOf log (Record.id a), Accepted w.2 :=
        fun w hw => h.accepted w (List.mem_of_mem_filter hw)
      rw [writesOf_append_self, auditRow_append haccepted now ha, ← h.rowAt, ← hkey, hw, hkey,
        ← hwritten]
      exact rowAt_put_self
    · have hne : toString id ≠ Record.key α w := by
        rw [hwritten]
        exact fun htext => hid (Uuid.toString_injective htext.symm)
      rw [writesOf_append_of_ne log now hid, ← h.rowAt]
      exact rowAt_put_of_ne hne

end Audited

/-! ## Attempts on the rows of a log -/

/-- The store keeps the rows of the log, and nothing is begun. -/
structure KeepsLog {α ρ γ : Type} [Record α ρ γ] [StoredRecord α ρ γ] (log : List (Int × α))
    (s : Store) (rows : List ρ) : Prop where
  /-- There is no transaction. -/
  transaction : s.transaction = .none
  /-- The rows are kept. -/
  keeps : Keeps α s.committed rows
  /-- Nothing is rejected. -/
  admits : Admits α s.committed
  /-- The rows are those of the log. -/
  audited : Audited log rows

namespace KeepsLog

variable {log : List (Int × α)} {s s' : Store} {rows : List ρ}

omit [Layout γ] [LawfulRecord α ρ γ] in
/-- An attempt that finds no locks has the store to itself. -/
theorem ready (h : KeepsLog log s rows) (hsound : s.poisoned = false) {x : Attempt α}
    (hfree : (x.meet s).others.write = false ∧ (x.meet s).others.read = false) :
    Ready α (x.meet s) rows where
  others := Connections.locks_eq_of_free hfree.1 hfree.2
  transaction reads ht := by
    rw [show (x.meet s).transaction = .none from h.transaction] at ht
    cases ht
  sound := hsound
  idle := h.transaction
  keeps := h.keeps
  admits := h.admits

omit [Layout γ] [LawfulRecord α ρ γ] in
/-- An attempt that fails leaves the rows and the log alone. -/
theorem of_sameTables (h : KeepsLog log s rows) {x : Attempt α} (ht : s'.transaction = .none)
    (hs : (x.meet s).SameTables s') : KeepsLog log s' rows where
  transaction := ht
  keeps := hs.committed ▸ h.keeps
  admits := hs.committed ▸ h.admits
  audited := h.audited

/-- An attempt leaves the rows of the log that it leaves. -/
theorem run (h : KeepsLog log s rows) (hlen : log.length < 2 ^ 63 - 1) (x : Attempt α) :
    ∃ rows', KeepsLog (x.run log s).1 (x.run log s).2 rows' := by
  unfold Attempt.run
  cases x.write with
  | upsert now a =>
    have ht := Repository.upsert_transaction (s := x.meet s) h.transaction x.repository now a
    dsimp only
    cases hresult : (x.repository.upsert now a (x.meet s)).result with
    | error e =>
      exact ⟨rows, h.of_sameTables ht (Repository.upsert_error_sameTables _ _ _ _ hresult)⟩
    | ok o =>
      obtain ⟨ho, hsound, row, _, _, _, ha, _⟩ := Repository.upsert_ok_cases hresult
      have hready := h.ready hsound (Repository.upsert_ok_unlocked hresult)
      have hafter := (Repository.upsert_spec hready ho now ha
        (h.audited.version_lt h.keeps hlen)).2
      exact ⟨_, ht, hafter.keeps, hafter.admits, h.audited.put now ha⟩
  | clear =>
    have ht := Repository.clear_transaction (s := x.meet s) h.transaction x.repository
    dsimp only
    cases hresult : (x.repository.clear (x.meet s)).result with
    | error e =>
      exact ⟨rows, h.of_sameTables ht (Repository.clear_error_sameTables _ _ hresult)⟩
    | ok n =>
      obtain ⟨ho, hsound, _⟩ := Repository.clear_ok_cases hresult
      have hready := h.ready hsound (Repository.clear_ok_unlocked hresult)
      have hafter := (Repository.clear_spec hready ho).2
      exact ⟨_, ht, hafter.keeps, hafter.admits, .nil⟩

end KeepsLog

omit [StoredRecord α ρ γ] [LawfulRecord α ρ γ] in
/-- What the statements of a kind keep is kept by an attempt on it. -/
theorem Attempt.run_keeps {P : Database → Prop} (hP : Preserves α P) {s : Store}
    (ht : s.transaction = .none) (h : P s.committed) (x : Attempt α) (log : List (Int × α)) :
    P (x.run log s).2.committed := by
  have hholds : (x.meet s).Holds P := by
    refine ⟨h, ?_⟩
    unfold Store.view Attempt.meet
    rw [ht]
    exact h
  unfold Attempt.run
  cases x.write with
  | upsert now a =>
    have hafter := (Repository.upsert_holds hP hholds x.repository now a).committed
    dsimp only
    cases (x.repository.upsert now a (x.meet s)).result <;> exact hafter
  | clear =>
    have hafter := (Repository.clear_holds hP hholds x.repository).committed
    dsimp only
    cases (x.repository.clear (x.meet s)).result <;> exact hafter

end

end AlertRegistry
