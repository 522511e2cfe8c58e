import AlertRegistry.Proofs.Alert.Lawful
import AlertRegistry.Proofs.Expression.Lawful
import AlertRegistry.Proofs.Repository.Audit
import AlertRegistry.Proofs.SideRecord.Coercion

/-!
# Runs on both kinds of records

Attempts on alerts and on expressions follow each other on one store. An attempt on one kind leaves
the rows of the other one alone, so the rows of both kinds tell what is in their logs after every
run (`Ledger.Keeps.run`), and side-records tell which extension maps were written last
(`KeepsLog.tellsSides`).
-/

namespace AlertRegistry

/-- Only the empty map has no side-record. -/
theorem SideRecord.eq_none_iff_of_ofExtensions {e : Extensions} {side : Option SideRecord}
    (h : ofExtensions e = .ok side) : side = none ↔ e.toList = [] := by
  rw [← Extensions.eq_empty_iff]
  rcases eq_empty_or_exists_of_ofExtensions h with ⟨rfl, rfl⟩ | ⟨r, rfl, ⟨key, hkey⟩, -⟩
  · exact iff_of_true rfl rfl
  · refine iff_of_false (Option.some_ne_none r) ?_
    rintro rfl
    cases hkey

/-- A store with the logs of what was written to it. -/
structure Ledger where
  /-- The store. -/
  store : Store
  /-- The log of the alerts. -/
  alerts : List (Int × Alert) := []
  /-- The log of the expressions. -/
  expressions : List (Int × Expression) := []
  /-- The number of writes that were ever logged, removed or not. -/
  written : Nat := 0

/-- The side-records tell what is in the log: one per alert at most, none without its alert, and
each is that of the extension map which was written last. -/
structure TellsSides (db : Database) (log : List (Int × Alert)) : Prop where
  /-- Keys are distinct. -/
  nodup : (Table.keys db.sides.tuples).Nodup
  /-- Every side-record belongs to an alert. -/
  owned : Table.keys db.sides.tuples ⊆ Table.keys db.alerts.tuples
  /-- There is a side-record if the map is not empty, and it is that of the map. -/
  last (id : Uuid) (w : Int × Alert) : (writesOf log id).getLast? = some w →
    ∃ side, SideRecord.ofExtensions w.2.extensions = .ok side
      ∧ db.sides.find? (.text (toString id)) = side.map (·.tuple (toString id))
      ∧ (side = none ↔ w.2.extensions.toList = [])

/-- With the rows that it leaves, a log of alerts tells of their side-records. -/
theorem KeepsLog.tellsSides {log : List (Int × Alert)} {s : Store} {rows : List AlertRow}
    (h : KeepsLog log s rows) : TellsSides s.committed log where
  nodup := h.keeps.sideKeys
  owned := by
    intro key hkey
    obtain ⟨id, hid, rfl⟩ := h.keeps.sideIds key hkey
    rw [h.keeps.tuples]
    exact AlertRow.text_mem_keys_stored.2 hid
  last id w hw := by
    obtain ⟨hlog, hid⟩ := List.mem_filter.1 (List.mem_of_getLast? hw)
    obtain rfl : w.2.id = id := of_decide_eq_true hid
    obtain ⟨r, hr, hkey⟩ := List.mem_map.1 ((h.audited.tellsWrites h.keeps).written w hlog)
    obtain ⟨_, last, row, _, hlast, hrow, rfl⟩ :=
      auditRow_eq_some (h.audited.auditRow_of_mem h.keeps hr hkey)
    obtain rfl : w = last := Option.some.inj (hw.symm.trans hlast)
    obtain ⟨_, side, hside, rfl⟩ := AlertRow.ofAlert_eq_ok_iff.1 hrow
    exact ⟨side, hside, h.keeps.sides _ hr, SideRecord.eq_none_iff_of_ofExtensions hside⟩

namespace Ledger

/-- The ledger after an attempt on either kind. -/
def step (l : Ledger) : Attempt Alert ⊕ Attempt Expression → Ledger
  | .inl x =>
    let (log, s) := x.run l.alerts l.store
    { l with store := s, alerts := log, written := l.written + (log.length - l.alerts.length) }
  | .inr x =>
    let (log, s) := x.run l.expressions l.store
    { l with
      store := s, expressions := log
      written := l.written + (log.length - l.expressions.length) }

/-- What was ever logged is not forgotten. -/
theorem written_le (l : Ledger) (xs : List (Attempt Alert ⊕ Attempt Expression)) :
    l.written ≤ (xs.foldl step l).written := by
  induction xs generalizing l with
  | nil => exact Nat.le_refl _
  | cons x xs ih =>
    have hstep : l.written ≤ (l.step x).written := by
      cases x <;> exact Nat.le_add_right _ _
    exact hstep.trans (ih (l.step x))

/-- The rows and side-records of the store tell what is in the logs. -/
structure Tells (l : Ledger) : Prop where
  /-- The alerts. -/
  alerts : ∃ rows, l.store.committed.KeepsAlerts rows ∧ TellsWrites l.alerts rows
  /-- Their side-records. -/
  sides : TellsSides l.store.committed l.alerts
  /-- The expressions. -/
  expressions : ∃ rows, l.store.committed.KeepsExpressions rows ∧ TellsWrites l.expressions rows

/-- Both kinds of rows are those of their logs. -/
structure Keeps (l : Ledger) : Prop where
  /-- The alerts. -/
  alerts : ∃ rows, KeepsLog l.alerts l.store rows
  /-- The expressions. -/
  expressions : ∃ rows, KeepsLog l.expressions l.store rows
  /-- What is in the log of the alerts was logged. -/
  alertsLength : l.alerts.length ≤ l.written
  /-- What is in the log of the expressions was logged. -/
  expressionsLength : l.expressions.length ≤ l.written

namespace Keeps

variable {l : Ledger}

theorem tells (h : l.Keeps) : l.Tells := by
  obtain ⟨alerts, halerts⟩ := h.alerts
  obtain ⟨expressions, hexpressions⟩ := h.expressions
  exact {
    alerts := ⟨alerts, halerts.keeps, halerts.audited.tellsWrites halerts.keeps⟩
    sides := halerts.tellsSides
    expressions := ⟨expressions, hexpressions.keeps,
      hexpressions.audited.tellsWrites hexpressions.keeps⟩ }

/-- An attempt on one kind leaves the rows of both as their logs say. -/
theorem step (h : l.Keeps) (hfew : l.written < 2 ^ 63 - 1)
    (x : Attempt Alert ⊕ Attempt Expression) : (l.step x).Keeps := by
  obtain ⟨alerts, halerts⟩ := h.alerts
  obtain ⟨expressions, hexpressions⟩ := h.expressions
  have hla := h.alertsLength
  have hle := h.expressionsLength
  -- a log gets no longer than what was logged before, and now
  have hlogged : ∀ {old new : Nat}, old ≤ l.written → new ≤ l.written + (new - old) := by omega
  cases x with
  | inl x =>
    obtain ⟨alerts', hrun⟩ := halerts.run (by omega) x
    have hsame := x.run_keeps (alert_preserves l.store.committed.expressions)
      halerts.transaction rfl l.alerts
    exact {
      alerts := ⟨alerts', hrun⟩
      expressions := ⟨expressions, {
        transaction := hrun.transaction
        keeps := hexpressions.keeps.congr hsame
        admits := hexpressions.admits.congr hsame
        audited := hexpressions.audited }⟩
      alertsLength := hlogged hla
      expressionsLength := hle.trans (Nat.le_add_right _ _) }
  | inr x =>
    obtain ⟨expressions', hrun⟩ := hexpressions.run (by omega) x
    have hsame := x.run_keeps
      (expression_preserves l.store.committed.alerts l.store.committed.sides)
      hexpressions.transaction ⟨rfl, rfl⟩ l.expressions
    exact {
      alerts := ⟨alerts, {
        transaction := hrun.transaction
        keeps := halerts.keeps.congr hsame.1 hsame.2
        admits := halerts.admits.congr hsame.1 hsame.2
        audited := halerts.audited }⟩
      expressions := ⟨expressions', hrun⟩
      alertsLength := hla.trans (Nat.le_add_right _ _)
      expressionsLength := hlogged hle }

/-- A run leaves the rows of both kinds as their logs say. -/
theorem run {xs : List (Attempt Alert ⊕ Attempt Expression)} (h : l.Keeps)
    (hfew : (xs.foldl Ledger.step l).written < 2 ^ 63 - 1) : (xs.foldl Ledger.step l).Keeps := by
  induction xs generalizing l with
  | nil => exact h
  | cons x xs ih => exact ih (h.step ((l.written_le (x :: xs)).trans_lt hfew) x) hfew

end Keeps

end Ledger

/-- After any attempts on a store that starts empty, of which fewer than the greatest version have
written a record, the rows and side-records tell what was written since the last removal of all
records of their kind. -/
theorem rows_tell_writes {s : Store} (hempty : s.committed = {}) (hidle : s.transaction = .none)
    {xs : List (Attempt Alert ⊕ Attempt Expression)}
    (hfew : (xs.foldl Ledger.step { store := s }).written < 2 ^ 63 - 1) :
    (xs.foldl Ledger.step { store := s }).Tells := by
  have hstart : Ledger.Keeps { store := s } := {
    alerts := ⟨[], hidle, hempty ▸ LawfulRecord.keeps_empty, hempty ▸ LawfulRecord.admits_empty,
      .nil⟩
    expressions := ⟨[], hidle, hempty ▸ LawfulRecord.keeps_empty,
      hempty ▸ LawfulRecord.admits_empty, .nil⟩
    alertsLength := Nat.le_refl 0
    expressionsLength := Nat.le_refl 0 }
  exact (hstart.run hfew).tells

/-- The alert without attributes. -/
def plainAlert : Alert :=
  { AlertRow.watchedAlert with extensions := ∅ }

/-- An alert is created and, after the clock has gone back, written without attributes; then another
connection writes, and all alerts are not removed. -/
def rewriting : List (Attempt Alert ⊕ Attempt Expression) :=
  [.inl { repository := Repository.openAlerts, peers := []
          write := .upsert 10 AlertRow.watchedAlert },
    .inl { repository := Repository.openAlerts, peers := [], write := .upsert 5 plainAlert },
    .inl { repository := Repository.openAlerts, peers := [{ transaction := .writing {} false }]
           write := .clear }]

theorem log_rewriting : (rewriting.foldl Ledger.step { store := {} }).alerts
    = [(10, AlertRow.watchedAlert), (5, plainAlert)] := by
  with_unfolding_all rfl

theorem written_rewriting : (rewriting.foldl Ledger.step { store := {} }).written = 2 := by
  with_unfolding_all rfl

/-- The row tells of two writes, the first one at 10, and it has lost its side-record. -/
theorem rewriting_is_told : ∃ rows, ∃ r ∈ rows,
    (rewriting.foldl Ledger.step { store := {} }).store.committed.KeepsAlerts rows
      ∧ r.id = toString AlertRow.watchedAlert.id ∧ r.version = 2 ∧ r.createdAt = 10
      ∧ r.createdAt ≤ r.updatedAt
      ∧ (rewriting.foldl Ledger.step { store := {} }).store.committed.sides.find? (.text r.id)
        = none := by
  have htells : (rewriting.foldl Ledger.step { store := {} }).Tells :=
    rows_tell_writes rfl rfl (written_rewriting ▸ by decide)
  obtain ⟨rows, hkeeps, hrows⟩ := htells.alerts
  rw [log_rewriting] at hrows
  obtain ⟨r, hr, hkey⟩ :=
    List.mem_map.1 (hrows.written (10, AlertRow.watchedAlert) List.mem_cons_self)
  obtain ⟨id, hid, htold⟩ := hrows.row r hr
  obtain rfl : id = AlertRow.watchedAlert.id := Uuid.toString_injective (hid.symm.trans hkey)
  have hwrites : writesOf [(10, AlertRow.watchedAlert), (5, plainAlert)] AlertRow.watchedAlert.id
      = [(10, AlertRow.watchedAlert), (5, plainAlert)] := by
    with_unfolding_all rfl
  rw [hwrites] at htold
  obtain ⟨first, hfirst, hcreated⟩ := htold.createdAt
  cases hfirst
  have hlast := htells.sides.last AlertRow.watchedAlert.id (5, plainAlert)
    (by rw [log_rewriting, hwrites]; rfl)
  obtain ⟨side, _, hfind, hside⟩ := hlast
  refine ⟨rows, r, hr, hkeeps, hkey, htold.version, hcreated, htold.ordered, ?_⟩
  rw [show r.id = toString AlertRow.watchedAlert.id from hkey, hfind, hside.2 rfl]
  rfl

end AlertRegistry
