import AlertRegistry.Proofs.Connections
import AlertRegistry.Proofs.Repository.Operations
import AlertRegistry.Proofs.Repository.Rollback
import AlertRegistry.Proofs.Uuid

/-!
# Runs of repositories

What a store holds after any run of calls, through any repositories on any connections to it, is a
map from identifiers to records that remembers in which order these came: the list of the last
accepted record for each identifier (`Call.track`). `Follows` says what it means that a store
answers as the list does; `follows_of_run` says that this is so after every run that starts on an
empty store.

The invariant of a run (`Tracks`) is that the connections are at rest with a database that keeps one
row for each record of the list, in the same order, and that no version is greater than the number
of calls so far, so that versions can always grow.
-/

namespace AlertRegistry

/-- A call of an operation of a repository. -/
inductive Call (α : Type) where
  /-- Creates or replaces a record at a time. -/
  | upsert (now : Int) (a : α)
  /-- Looks up a record. -/
  | get (id : Uuid)
  /-- Counts the records. -/
  | count
  /-- Runs a query. -/
  | query (q : BoundQuery)
  /-- Removes all records. -/
  | clear

/-- A call of a repository that is on one of several connections. -/
structure Request (α : Type) where
  /-- The position of the connection. -/
  connection : Nat
  /-- The repository. -/
  repository : Repository α
  /-- The call. -/
  call : Call α

section

variable {α ρ γ : Type} [Record α ρ γ]

/-- The record that is read back for a record that was accepted. -/
def readBack (a : α) : Option α :=
  (Record.toRow a).toOption.bind fun row => (Record.ofRow row).toOption

/-- The record has a row. -/
def Accepted (a : α) : Prop :=
  ∃ row : ρ, Record.toRow a = .ok row

namespace Call

/-- The records after a call, where `m` were there before: the last accepted one for each
identifier, in the order in which the identifiers were first used. -/
def track (m : List α) : Call α → List α
  | upsert _ a =>
    match Record.toRow a with
    | .ok _ => Keyed.put Record.id a m
    | .error _ => m
  | clear => []
  | _ => m

/-- The number of versions that a call may make of a record. -/
def writes : Call α → Nat
  | upsert .. => 1
  | _ => 0

variable [Layout γ]

/-- The store after a call. -/
def effect (r : Repository α) (s : Store) : Call α → Store
  | upsert now a => (r.upsert now a s).store
  | get id => (r.get id s).store
  | count => (r.count s).store
  | query q => (r.query q s).store
  | clear => (r.clear s).store

end Call

omit [Record α ρ γ] in
theorem Call.writes_le (c : Call α) : c.writes ≤ 1 := by
  cases c with
  | upsert _ _ => exact Nat.le_refl 1
  | _ => exact Nat.zero_le 1

/-- The connections after a request. -/
def Connections.serve [Layout γ] (cs : Connections) (q : Request α) : Connections :=
  match cs.run q.connection fun s => ((), q.call.effect q.repository s) with
  | none => cs
  | some (_, cs) => cs

/-- On the store every open repository answers as the list of records says: an accepted record is
new if its identifier is not in the list; the record with an identifier is what is read back for the
one in the list; a query for all records that returns the first page, if that covers the list,
returns what is read back for each, in the order of the list. -/
structure Follows [Layout γ] (m : List α) (s : Store) : Prop where
  nodup : (m.map Record.id).Nodup
  upsert (r : Repository α) (now : Int) (a : α) : r.state = .opened → Accepted a →
    (r.upsert now a s).result = .ok (if Record.id a ∈ m.map Record.id then .updated else .created)
  get_of_mem (r : Repository α) (a : α) : r.state = .opened → a ∈ m →
    ∃ b, readBack a = some b ∧ Record.id b = Record.id a
      ∧ (r.get (Record.id a) s).result = .ok (some b)
  get_of_not_mem (r : Repository α) (id : Uuid) : r.state = .opened → id ∉ m.map Record.id →
    (r.get id s).result = .ok none
  count (r : Repository α) : r.state = .opened → (r.count s).result = .ok m.length
  query (r : Repository α) (q : BoundQuery) : r.state = .opened → q.owner = r.identity →
    q.query.IsUnfiltered → rowsBefore q.query.offset q.query.limit = 0 →
    m.length ≤ (max q.query.limit 1).toNat →
    ∃ found, (r.query q s).result = .ok found ∧ found.values.map some = m.map readBack
      ∧ found.values.map Record.id = m.map Record.id ∧ found.total = m.length
  clear (r : Repository α) : r.state = .opened → (r.clear s).result = .ok m.length

end

/-- A first page that is large enough is the whole list. -/
theorem slice_eq_self {β : Type} {offset : Option UInt32} {limit : UInt32} {l : List β}
    (hfirst : rowsBefore offset limit = 0) (hlen : l.length ≤ (max limit 1).toNat) :
    slice offset limit l = l := by
  unfold slice
  rw [hfirst, List.drop_zero, List.take_of_length_le hlen]

/-! ## Rows and records -/

open Repository (get_spec count_spec query_spec query_store upsert_spec clear_spec)

variable {α ρ γ : Type} [Record α ρ γ]

/-- The row is one of the record, apart from version and stamps. -/
def IsRowOf (a : α) (r : ρ) : Prop :=
  ∃ row, Record.toRow a = .ok row ∧ Record.key α r = Record.key α row
    ∧ (Record.ofRow r : Except RowError α) = Record.ofRow row

theorem IsRowOf.readBack_eq {a : α} {r : ρ} (h : IsRowOf a r) :
    readBack a = (Record.ofRow r).toOption := by
  obtain ⟨row, ha, _, hof⟩ := h
  unfold readBack
  rw [ha, hof]
  rfl

/-- An alert is read back up to the number of its threshold and the form of its extension map. -/
theorem exists_readBack_alert {a : Alert} {row : AlertRow} (ha : Record.toRow a = .ok row) :
    ∃ side b x, SideRecord.ofExtensions a.extensions = .ok side
      ∧ Decimal.Binary.ofFloat? a.threshold.value = some b
      ∧ Double.Denotes x b.negative (Json.readBack b)
      ∧ readBack a = some (AlertRow.restored a side x) := by
  obtain ⟨side, b, x, hside, hb, hback, hden⟩ := AlertRow.exists_toAlert_eq_ok ha
  refine ⟨side, b, x, hside, hb, hden, ?_⟩
  unfold readBack
  rw [ha]
  show row.toAlert.toOption = _
  rw [hback]
  rfl

/-- An expression is read back as it is. -/
theorem readBack_expression (x : Expression) : readBack x = some x := by
  show ((ExpressionRow.ofExpression x).toExpression).toOption = some x
  unfold ExpressionRow.toExpression ExpressionRow.ofExpression
  rw [Uuid.ofString?_toString]
  rfl

/-- The rows are those of the records, one for each and in their order. -/
abbrev AreRowsOf (m : List α) (rows : List ρ) : Prop :=
  List.Forall₂ IsRowOf m rows

theorem AreRowsOf.exists_row {m : List α} {rows : List ρ} (h : AreRowsOf m rows) {a : α}
    (ha : a ∈ m) : ∃ r ∈ rows, IsRowOf a r := by
  induction h with
  | nil => cases ha
  | cons hr _ ih =>
    rcases List.mem_cons.1 ha with rfl | ha
    · exact ⟨_, List.mem_cons_self, hr⟩
    · obtain ⟨r, hmem, hr⟩ := ih ha
      exact ⟨r, List.mem_cons_of_mem _ hmem, hr⟩

section

variable [Layout γ] [StoredRecord α ρ γ] [LawfulRecord α ρ γ]

theorem IsRowOf.key_eq {a : α} {r : ρ} (h : IsRowOf a r) :
    Record.key α r = toString (Record.id a) := by
  obtain ⟨row, ha, hkey, _⟩ := h
  rw [hkey, LawfulRecord.key_toRow ha]

/-- The row of a record denotes a record with the same identifier. -/
theorem IsRowOf.ofRow_eq_ok {a : α} {r : ρ} (h : IsRowOf a r) :
    ∃ b : α, Record.ofRow r = .ok b ∧ Record.id b = Record.id a := by
  obtain ⟨row, ha, _, hof⟩ := h
  obtain ⟨b, hb, hid⟩ := LawfulRecord.readable ha
  exact ⟨b, hof.trans hb, hid⟩

theorem isRowOf_writtenOver {a : α} {row : ρ} (ha : Record.toRow a = .ok row) (now : Int)
    (old : Option ρ) : IsRowOf a (writtenOver α now row old) :=
  ⟨row, ha, key_writtenOver now row old, ofRow_writtenOver now row old⟩

/-- A write makes a version greater by one. -/
theorem version_writtenOver_le {n : Nat} {old : Option ρ} (row : ρ) (now : Int)
    (h : ∀ u, old = some u → Record.version α u ≤ n) :
    Record.version α (writtenOver α now row old) ≤ (n + 1 : Nat) := by
  cases old with
  | none =>
    show Record.version α (StoredRecord.stamp α row 1 now now) ≤ _
    rw [LawfulRecord.version_stamp]
    omega
  | some u =>
    have hu := h u rfl
    show Record.version α (StoredRecord.stamp α row (Record.version α u + 1) _ _) ≤ _
    rw [LawfulRecord.version_stamp]
    omega

namespace AreRowsOf

variable {m : List α} {rows : List ρ}

theorem keys_eq (h : AreRowsOf m rows) :
    rows.map (Record.key α) = (m.map Record.id).map toString := by
  induction h with
  | nil => rfl
  | cons hr _ ih => rw [List.map_cons, List.map_cons, List.map_cons, hr.key_eq, ih]

theorem key_mem_iff (h : AreRowsOf m rows) (id : Uuid) :
    toString id ∈ rows.map (Record.key α) ↔ id ∈ m.map Record.id := by
  have hinj : Function.Injective (toString : Uuid → String) := fun _ _ => Uuid.toString_injective
  rw [h.keys_eq, List.mem_map_of_injective hinj]

/-- Reading the rows gives what is read back for the records. -/
theorem values_eq (h : AreRowsOf m rows) :
    (rows.filterMap fun r => (Record.ofRow r : Except RowError α).toOption).map some
        = m.map readBack
      ∧ (rows.filterMap fun r => (Record.ofRow r : Except RowError α).toOption).map Record.id
        = m.map Record.id := by
  induction h with
  | nil => exact ⟨rfl, rfl⟩
  | cons hr _ ih =>
    obtain ⟨b, hb, hid⟩ := hr.ofRow_eq_ok
    rw [List.filterMap_cons_some (by rw [hb]; rfl), List.map_cons, List.map_cons, List.map_cons,
      List.map_cons, hr.readBack_eq, hb, ih.1, ih.2, hid]
    exact ⟨rfl, rfl⟩

end AreRowsOf

/-! ## One store -/

/-- The store keeps one row for each record, none of them written more than `n` times. -/
structure Tracks (m : List α) (n : Nat) (s : Store) (rows : List ρ) : Prop
    extends Ready α s rows where
  /-- The rows are those of the records. -/
  areRows : AreRowsOf m rows
  /-- Versions count writes. -/
  versions : ∀ r ∈ rows, Record.version α r ≤ n

namespace Tracks

variable {m : List α} {n : Nat} {s : Store} {rows : List ρ}

omit [Layout γ] [LawfulRecord α ρ γ] in
theorem of_idle {s₀ : Store} (h : Tracks m n s₀ rows) (hs : s.Idle)
    (hdb : s.committed = s₀.committed) : Tracks m n s rows where
  toIdle := hs
  keeps := hdb ▸ h.keeps
  admits := hdb ▸ h.admits
  areRows := h.areRows
  versions := h.versions

omit [Layout γ] [LawfulRecord α ρ γ] in
/-- There is room for another write. -/
theorem version_lt (h : Tracks m n s rows) (hn : n < 2 ^ 63 - 1) :
    ∀ r ∈ rows, Record.version α r < Text.maxInt64 := by
  intro r hr
  have := h.versions r hr
  unfold Text.maxInt64
  omega

/-- A store that keeps the rows of records answers as the records say. -/
theorem follows (h : Tracks m n s rows) (hn : n < 2 ^ 63 - 1) : Follows m s := by
  have hnd : (rows.map (Record.key α)).Nodup := LawfulRecord.nodup h.keeps
  refine {
    nodup := ?_
    upsert := ?_
    get_of_mem := ?_
    get_of_not_mem := ?_
    count := ?_
    query := ?_
    clear := ?_ }
  · rw [h.areRows.keys_eq] at hnd
    exact hnd.of_map _
  · rintro r now a ho ⟨row, ha⟩
    rw [(upsert_spec h.toReady ho now ha (h.version_lt hn)).1, LawfulRecord.key_toRow ha]
    exact congrArg Except.ok (if_congr (h.areRows.key_mem_iff _) rfl rfl)
  · intro r a ho ha
    obtain ⟨row, hmem, hrow⟩ := h.areRows.exists_row ha
    obtain ⟨b, hb, hid⟩ := hrow.ofRow_eq_ok
    have hat : rowAt α (toString (Record.id a)) rows = some row := by
      rw [← hrow.key_eq]
      exact Keyed.find?_eq_some_of_mem hnd hmem
    refine ⟨b, ?_, hid, ?_⟩
    · rw [hrow.readBack_eq, hb]
      rfl
    · rw [(get_spec h.toReady ho _).1, hat, Option.bind_some, hb]
      rfl
  · intro r id ho hid
    have hat : rowAt α (toString id) rows = none := by
      rw [← Option.not_isSome_iff_eq_none, rowAt_isSome, h.areRows.key_mem_iff]
      exact hid
    rw [(get_spec h.toReady ho id).1, hat]
    rfl
  · intro r ho
    rw [(count_spec h.toReady ho).1, h.areRows.length_eq]
  · -- the page is the whole list, and none of its rows fails to be read
    intro r q ho hb hq hfirst hlen
    obtain ⟨found, hfound, hvalues, htotal⟩ := query_spec h.toReady ho hb hq
    rw [slice_eq_self hfirst (h.areRows.length_eq ▸ hlen)] at hvalues
    refine ⟨found, hfound, ?_, ?_, htotal.trans h.areRows.length_eq.symm⟩
    · rw [hvalues, h.areRows.values_eq.1]
    · rw [hvalues, h.areRows.values_eq.2]
  · intro r ho
    rw [(clear_spec h.toReady ho).1, h.areRows.length_eq]

omit [Layout γ] [LawfulRecord α ρ γ] in
theorem mono (h : Tracks m n s rows) {n' : Nat} (hn : n ≤ n') : Tracks m n' s rows where
  toReady := h.toReady
  areRows := h.areRows
  versions r hr := by
    have := h.versions r hr
    omega

omit [Layout γ] [LawfulRecord α ρ γ] in
/-- A call that leaves the store alone. -/
theorem unchanged (h : Tracks m n s rows) {s' : Store} (hs : s' = s) : Tracks m n s' rows := by
  rwa [hs]

omit [LawfulRecord α ρ γ] in
/-- A record without row changes nothing. -/
theorem upsert_rejected (h : Tracks m n s rows) {r : Repository α} (ho : r.state = .opened)
    (now : Int) {a : α} {e : RecordError}
    (ha : (Record.toRow a : Except RecordError ρ) = .error e) :
    Tracks m n (r.upsert now a s).store rows :=
  h.unchanged (Repository.upsert_of_toRow_error r ho now ha s).2

/-- An accepted record takes its place among the records, and its row among the rows. -/
theorem upsert_accepted (h : Tracks m n s rows) (hn : n < 2 ^ 63 - 1) {r : Repository α}
    (ho : r.state = .opened) (now : Int) {a : α} {row : ρ} (ha : Record.toRow a = .ok row) :
    ∃ rows', Tracks (Keyed.put Record.id a m) (n + 1) (r.upsert now a s).store rows' := by
  have hinj : Function.Injective (toString : Uuid → String) := fun _ _ => Uuid.toString_injective
  refine ⟨_, (upsert_spec h.toReady ho now ha (h.version_lt hn)).2, ?_, ?_⟩
  · exact Keyed.forall₂_put IsRowOf hinj IsRowOf.key_eq h.areRows (isRowOf_writtenOver ha now _)
  · intro u hu
    rcases Keyed.mem_put hu with rfl | hu
    · exact version_writtenOver_le row now fun old hold => h.versions old (mem_of_rowAt α hold).1
    · have := h.versions u hu
      omega

/-- One call keeps store and records in step. -/
theorem effect (h : Tracks m n s rows) (hn : n < 2 ^ 63 - 1) {r : Repository α}
    (ho : r.state = .opened) (c : Call α) :
    ∃ rows', Tracks (c.track m) (n + c.writes) (c.effect r s) rows' := by
  cases c with
  | upsert now a =>
    show ∃ rows', Tracks (match Record.toRow a with
      | .ok _ => Keyed.put Record.id a m
      | .error _ => m) (n + 1) (r.upsert now a s).store rows'
    cases ha : (Record.toRow a : Except RecordError ρ) with
    | error e => exact ⟨rows, (h.upsert_rejected ho now ha).mono (Nat.le_succ n)⟩
    | ok row => exact h.upsert_accepted hn ho now ha
  | get id => exact ⟨rows, h.unchanged (get_spec h.toReady ho id).2⟩
  | count => exact ⟨rows, h.unchanged (count_spec h.toReady ho).2⟩
  | query q => exact ⟨rows, h.unchanged (query_store h.toAlone r q)⟩
  | clear => exact ⟨[], (clear_spec h.toReady ho).2, .nil, by simp⟩

end Tracks

/-! ## Several connections -/

namespace Connections

/-- Between the calls of a run every connection is idle, and the committed database keeps one row
for each record. -/
def Track (m : List α) (n : Nat) (cs : Connections) : Prop :=
  ∃ db rows, cs.AtRest db ∧ Tracks m n { committed := db } rows

omit [Layout γ] [LawfulRecord α ρ γ] in
theorem Track.at? {m : List α} {n : Nat} {cs : Connections} (h : cs.Track m n) {i : Nat} {s : Store}
    (hs : cs.at? i = some s) : ∃ rows, Tracks m n s rows := by
  obtain ⟨db, rows, hrest, htracks⟩ := h
  obtain ⟨hidle, hdb⟩ := hrest.idle_of_at? hs
  exact ⟨rows, htracks.of_idle hidle hdb⟩

/-- One request keeps connections and records in step. -/
theorem Track.step {m : List α} {n : Nat} {cs : Connections} (h : cs.Track m n)
    (hn : n < 2 ^ 63 - 1) {q : Request α} (ho : q.repository.state = .opened)
    (hi : q.connection < cs.length) : (cs.serve q).Track (q.call.track m) (n + 1) := by
  obtain ⟨s, hs⟩ := exists_at? hi
  obtain ⟨rows, htracks⟩ := h.at? hs
  obtain ⟨rows', htracks'⟩ := htracks.effect hn ho q.call
  have htracks' := htracks'.mono (Nat.add_le_add_left q.call.writes_le n)
  -- the connection is idle again, so the others see what it committed
  obtain ⟨db, _, hrest, _⟩ := h
  unfold Connections.serve Connections.run
  rw [hs]
  exact ⟨_, rows', hrest.putBack hi htracks'.toIdle, htracks'.of_idle ⟨⟨rfl, nofun, rfl⟩, rfl⟩ rfl⟩

omit [StoredRecord α ρ γ] [LawfulRecord α ρ γ] in
theorem length_serve (cs : Connections) (q : Request α) : (cs.serve q).length = cs.length := by
  unfold Connections.serve Connections.run
  cases cs.at? q.connection with
  | none => rfl
  | some s => exact length_putBack ..

omit [StoredRecord α ρ γ] [LawfulRecord α ρ γ] in
theorem length_run (requests : List (Request α)) (cs : Connections) :
    (requests.foldl serve cs).length = cs.length := by
  induction requests generalizing cs with
  | nil => rfl
  | cons q requests ih => rw [List.foldl_cons, ih, length_serve]

/-- A run keeps connections and records in step. -/
theorem Track.run {requests : List (Request α)} {m : List α} {n : Nat} {cs : Connections}
    (h : cs.Track m n) (hn : n + requests.length < 2 ^ 63 - 1)
    (hq : ∀ q ∈ requests, q.repository.state = .opened ∧ q.connection < cs.length) :
    (requests.foldl serve cs).Track (requests.foldl (fun m q => q.call.track m) m)
      (n + requests.length) := by
  -- one step for the first request, from which the rest is a run with one write less to go
  induction requests generalizing m n cs with
  | nil => exact h
  | cons q requests ih =>
    obtain ⟨ho, hi⟩ := hq q List.mem_cons_self
    rw [List.length_cons] at hn ⊢
    have hstep := h.step (by omega) ho hi
    have hrun := ih hstep (by omega) (by
      intro q' hq'
      rw [length_serve]
      exact hq q' (List.mem_cons_of_mem q hq'))
    rw [show n + (requests.length + 1) = n + 1 + requests.length by omega]
    exact hrun

/-- After every run on a store that starts empty, each connection answers as the records say. -/
theorem follows_of_run {cs : Connections} (h : cs.AtRest {}) {requests : List (Request α)}
    (hlen : requests.length < 2 ^ 63 - 1)
    (hq : ∀ q ∈ requests, q.repository.state = .opened ∧ q.connection < cs.length) {i : Nat}
    {s : Store} (hs : (requests.foldl serve cs).at? i = some s) :
    Follows (requests.foldl (fun m q => q.call.track m) []) s := by
  have hstart : cs.Track ([] : List α) 0 :=
    ⟨{}, [], h, {
      toIdle := ⟨⟨rfl, nofun, rfl⟩, rfl⟩
      keeps := LawfulRecord.keeps_empty
      admits := LawfulRecord.admits_empty
      areRows := .nil
      versions := by simp }⟩
  have hrun := hstart.run (by omega) hq
  obtain ⟨rows, htracks⟩ := hrun.at? hs
  exact htracks.follows (by omega)

end Connections

end

end AlertRegistry
