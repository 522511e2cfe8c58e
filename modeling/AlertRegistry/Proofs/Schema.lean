import AlertRegistry.Proofs.Alert.Lawful
import AlertRegistry.Proofs.Expression.Lawful
import AlertRegistry.Proofs.Reading

/-!
# Databases that meet their schema

A database meets its schema (`Database.MeetsSchema`) if each cell is of the type of its column, or
null where that is permitted, all checks pass, keys are distinct, and side-records refer to alerts.
Nothing is said about what the texts are: a row may denote no record at all.

That is enough for every tuple to be read as a row (`exists_readsAs_alert`,
`exists_readsAs_expression`), and the rows are kept by the database (`keepsAlerts`,
`keepsExpressions`).
-/

namespace AlertRegistry

open StoredRecord (Keeps)
open Table (keys keyOf)

/-! ## Types of cells -/

/-- The cell is a value of the type that a column is meant to hold. -/
def Affinity.Holds : Affinity → Cell → Prop
  | text, c => ∃ s, c = .text s
  | integer, c => ∃ n, c = .integer n

section

variable {γ : Type} [Layout γ]

/-- Every cell is of the type of its column, or null where that is permitted. -/
def Tuple.IsTyped (t : Tuple γ) : Prop :=
  ∀ c, (Layout.affinity c).Holds (t c) ∨ (Layout.required c = false ∧ t c = .null)

namespace Tuple.IsTyped

variable {t : Tuple γ} {c : γ}

theorem holds (h : t.IsTyped) (hreq : Layout.required c = true) :
    (Layout.affinity c).Holds (t c) := by
  refine (h c).resolve_right fun hnull => ?_
  rw [hnull.1] at hreq
  cases hreq

/-- A required column of texts holds a text. -/
theorem text (h : t.IsTyped) (hreq : Layout.required c = true)
    (haff : Layout.affinity c = .text) : ∃ s, t c = .text s := by
  have hc := h.holds hreq
  rwa [haff] at hc

/-- A required column of integers holds an integer. -/
theorem integer (h : t.IsTyped) (hreq : Layout.required c = true)
    (haff : Layout.affinity c = .integer) : ∃ n, t c = .integer n := by
  have hc := h.holds hreq
  rwa [haff] at hc

/-- Any column of texts holds an optional text. -/
theorem text? (h : t.IsTyped) (haff : Layout.affinity c = .text) :
    ∃ s : Option String, t c = (s.map .text).getD .null := by
  rcases h c with hc | ⟨_, hnull⟩
  · rw [haff] at hc
    obtain ⟨s, hs⟩ := hc
    exact ⟨some s, hs⟩
  · exact ⟨none, hnull⟩

/-- Any column of integers holds an optional integer. -/
theorem integer? (h : t.IsTyped) (haff : Layout.affinity c = .integer) :
    ∃ n : Option Int, t c = (n.map .integer).getD .null := by
  rcases h c with hc | ⟨_, hnull⟩
  · rw [haff] at hc
    obtain ⟨n, hn⟩ := hc
    exact ⟨some n, hn⟩
  · exact ⟨none, hnull⟩

end Tuple.IsTyped

end

/-- A tuple of the types of its columns is that of a side-record. -/
theorem SideRecord.exists_tuple_eq {t : Tuple SideColumn} (h : t.IsTyped) {id : String}
    (hid : t .alertId = .text id) : ∃ side : SideRecord, t = side.tuple id := by
  obtain ⟨severity, hseverity⟩ := h.text? (c := .severity) rfl
  obtain ⟨recipient, hrecipient⟩ := h.text? (c := .recipient) rfl
  obtain ⟨attempts, hattempts⟩ := h.integer? (c := .attempts) rfl
  obtain ⟨freshness, hfreshness⟩ := h.integer? (c := .freshness) rfl
  refine ⟨{ severity, recipient, attempts, freshness }, funext fun column => ?_⟩
  cases column with
  | alertId => exact hid
  | severity => exact hseverity
  | recipient => exact hrecipient
  | attempts => exact hattempts
  | freshness => exact hfreshness

/-- A tuple of the types of its columns is that of a row, with any side-record. -/
theorem AlertRow.exists_stored_eq {t : Tuple AlertColumn} (h : t.IsTyped)
    (side : Option SideRecord) : ∃ r : AlertRow, t = r.stored ∧ r.side = side := by
  obtain ⟨id, hid⟩ := h.text (c := .id) rfl rfl
  obtain ⟨version, hversion⟩ := h.integer (c := .version) rfl rfl
  obtain ⟨createdAt, hcreatedAt⟩ := h.integer (c := .createdAt) rfl rfl
  obtain ⟨updatedAt, hupdatedAt⟩ := h.integer (c := .updatedAt) rfl rfl
  obtain ⟨name, hname⟩ := h.text (c := .name) rfl rfl
  obtain ⟨cluster, hcluster⟩ := h.text (c := .cluster) rfl rfl
  obtain ⟨service, hservice⟩ := h.text (c := .service) rfl rfl
  obtain ⟨context, hcontext⟩ := h.text (c := .context) rfl rfl
  obtain ⟨metric, hmetric⟩ := h.text (c := .metric) rfl rfl
  obtain ⟨statistic, hstatistic⟩ := h.text (c := .statistic) rfl rfl
  obtain ⟨period, hperiod⟩ := h.text (c := .period) rfl rfl
  obtain ⟨operator, hoperator⟩ := h.text (c := .operator) rfl rfl
  obtain ⟨quantity, hquantity⟩ := h.text (c := .quantity) rfl rfl
  refine ⟨{ id, version, createdAt, updatedAt, name, cluster, service, context, metric, statistic,
            period, operator, quantity, side }, funext fun column => ?_, rfl⟩
  cases column with
  | id => exact hid
  | version => exact hversion
  | createdAt => exact hcreatedAt
  | updatedAt => exact hupdatedAt
  | name => exact hname
  | cluster => exact hcluster
  | service => exact hservice
  | context => exact hcontext
  | metric => exact hmetric
  | statistic => exact hstatistic
  | period => exact hperiod
  | operator => exact hoperator
  | quantity => exact hquantity

/-- The tuple of a row is of the types of its columns. -/
theorem AlertRow.isTyped_stored (r : AlertRow) : r.stored.IsTyped := by
  intro column
  cases column <;> exact .inl ⟨_, rfl⟩

theorem ExpressionRow.exists_stored_eq {t : Tuple ExpressionColumn} (h : t.IsTyped) :
    ∃ r : ExpressionRow, t = r.stored := by
  obtain ⟨id, hid⟩ := h.text (c := .id) rfl rfl
  obtain ⟨version, hversion⟩ := h.integer (c := .version) rfl rfl
  obtain ⟨createdAt, hcreatedAt⟩ := h.integer (c := .createdAt) rfl rfl
  obtain ⟨updatedAt, hupdatedAt⟩ := h.integer (c := .updatedAt) rfl rfl
  obtain ⟨cluster, hcluster⟩ := h.text (c := .cluster) rfl rfl
  obtain ⟨service, hservice⟩ := h.text (c := .service) rfl rfl
  obtain ⟨metric, hmetric⟩ := h.text (c := .metric) rfl rfl
  obtain ⟨script, hscript⟩ := h.text (c := .script) rfl rfl
  refine ⟨{ id, version, createdAt, updatedAt, cluster, service, metric, script },
    funext fun column => ?_⟩
  cases column with
  | id => exact hid
  | version => exact hversion
  | createdAt => exact hcreatedAt
  | updatedAt => exact hupdatedAt
  | cluster => exact hcluster
  | service => exact hservice
  | metric => exact hmetric
  | script => exact hscript

/-! ## Tables and databases -/

/-- The table meets its schema, whatever the texts in it are. -/
structure Table.MeetsSchema {γ : Type} [Layout γ] (T : Table γ) : Prop where
  /-- Cells are of the types of their columns, or null where that is permitted. -/
  typed : ∀ t ∈ T.tuples, t.IsTyped
  /-- All checks pass. -/
  checked : ∀ t ∈ T.tuples, ∀ k ∈ (Layout.checks : List (Check γ)), k.passes t = true
  /-- No two tuples have one key. -/
  nodup : (keys T.tuples).Nodup

/-- The database meets its schema. -/
structure Database.MeetsSchema (db : Database) : Prop where
  /-- The alerts. -/
  alerts : db.alerts.MeetsSchema
  /-- The side-records. -/
  sides : db.sides.MeetsSchema
  /-- The expressions. -/
  expressions : db.expressions.MeetsSchema
  /-- Side-records refer to alerts. -/
  referenced : keys db.sides.tuples ⊆ keys db.alerts.tuples

/-- All tuples of the table are read as the rows, one by one. -/
def ReadsAs (α : Type) {ρ γ : Type} [Record α ρ γ] (db : Database) (rows : List ρ) : Prop :=
  (Record.table α db).tuples.mapM (Record.readRow α db) = .ok rows

/-- What the checks on versions and stamps say of integers. -/
theorem checks_of_integers {γ : Type} {t : Tuple γ} {version createdAt updatedAt : γ} {v c u : Int}
    (h : ∀ k ∈ [versionCheck version, stampCheck createdAt updatedAt], k.passes t = true)
    (hv : t version = .integer v) (hc : t createdAt = .integer c) (hu : t updatedAt = .integer u) :
    1 ≤ v ∧ c ≤ u := by
  have hversion : (t version).permitsGe (.integer 1) = true := h _ List.mem_cons_self
  have hstamps : (t updatedAt).permitsGe (t createdAt) = true :=
    h _ (List.mem_cons_of_mem _ List.mem_cons_self)
  rw [hv] at hversion
  rw [hc, hu] at hstamps
  exact ⟨of_decide_eq_true hversion, of_decide_eq_true hstamps⟩

namespace Database.MeetsSchema

variable {db : Database}

/-! ## Alerts -/

/-- Every tuple of an alert is that of a row whose side-record is under its key. -/
theorem exists_alertRow (h : db.MeetsSchema) {t : Tuple AlertColumn} (ht : t ∈ db.alerts.tuples) :
    ∃ r : AlertRow, t = r.stored ∧ db.sides.find? (.text r.id) = r.side.map (·.tuple r.id) := by
  have htyped := h.alerts.typed t ht
  obtain ⟨id, hid⟩ := htyped.text (c := .id) rfl rfl
  obtain ⟨side, hside⟩ : ∃ side : Option SideRecord,
      db.sides.find? (.text id) = side.map (·.tuple id) := by
    cases hfind : db.sides.find? (.text id) with
    | none => exact ⟨none, rfl⟩
    | some u =>
      obtain ⟨hu, hkey⟩ := (Table.find?_eq_some_iff h.sides.nodup).1 hfind
      obtain ⟨side, rfl⟩ := SideRecord.exists_tuple_eq (h.sides.typed u hu) hkey
      exact ⟨some side, rfl⟩
  obtain ⟨r, rfl, rfl⟩ := AlertRow.exists_stored_eq htyped side
  obtain rfl := Cell.text.inj hid
  exact ⟨r, rfl, hside⟩

/-- A row that is read is that of its tuple, and its side-record is the one under its key. -/
theorem eq_of_readAlert (h : db.MeetsSchema) {t : Tuple AlertColumn} (ht : t ∈ db.alerts.tuples)
    {r : AlertRow} (hread : AlertRow.read db t = .ok r) :
    t = r.stored ∧ db.sides.find? (.text r.id) = r.side.map (·.tuple r.id) := by
  obtain ⟨r', rfl, hside⟩ := h.exists_alertRow ht
  unfold AlertRow.read at hread
  rw [AlertRow.keyOf_stored, hside, AlertRow.ofTuple_stored] at hread
  cases hread
  exact ⟨rfl, hside⟩

theorem exists_readsAs_alert (h : db.MeetsSchema) : ∃ rows, ReadsAs Alert db rows := by
  refine exists_mapM_iff.2 fun t ht => ?_
  obtain ⟨r, rfl, hside⟩ := h.exists_alertRow ht
  refine ⟨r, ?_⟩
  show AlertRow.read db r.stored = .ok r
  unfold AlertRow.read
  rw [AlertRow.keyOf_stored, hside, AlertRow.ofTuple_stored]

/-- The rows that are read of the alerts are kept. -/
theorem keepsAlerts (h : db.MeetsSchema) {rows : List AlertRow} (hrows : ReadsAs Alert db rows) :
    db.KeepsAlerts rows := by
  have hrow : ∀ r ∈ rows, r.stored ∈ db.alerts.tuples
      ∧ db.sides.find? (.text r.id) = r.side.map (·.tuple r.id) := by
    intro r hr
    obtain ⟨t, ht, hread⟩ := (mem_of_mapM hrows).1 hr
    obtain ⟨rfl, hside⟩ := h.eq_of_readAlert ht hread
    exact ⟨ht, hside⟩
  have htuples : db.alerts.tuples = rows.map AlertRow.stored := by
    rw [← List.forall₂_eq_eq_eq, List.forall₂_map_right_iff]
    refine (mapM_eq_ok_iff.1 hrows).imp fun t r hread => ?_
    exact AlertRow.eq_tuple_of_read hread
  have hchecked : ∀ r ∈ rows, 1 ≤ r.version ∧ r.createdAt ≤ r.updatedAt := fun r hr =>
    checks_of_integers (h.alerts.checked _ (hrow r hr).1) rfl rfl rfl
  have hkeys : keys db.alerts.tuples = (AlertRow.ids rows).map .text := by
    rw [htuples]
    exact Table.keys_stored AlertRow.keyOf_stored
  exact {
    tuples := htuples
    nodup := by
      have hnd := h.alerts.nodup
      rw [hkeys] at hnd
      exact hnd.of_map _
    written := fun r hr => (hchecked r hr).1
    stamps := fun r hr => (hchecked r hr).2
    sides := fun r hr => (hrow r hr).2
    sideKeys := h.sides.nodup
    sideIds := by
      intro key hkey
      have hmem := h.referenced hkey
      rw [hkeys] at hmem
      obtain ⟨id, hid, rfl⟩ := List.mem_map.1 hmem
      exact ⟨id, hid, rfl⟩ }

/-! ## Expressions -/

theorem exists_readsAs_expression (h : db.MeetsSchema) : ∃ rows, ReadsAs Expression db rows := by
  refine exists_mapM_iff.2 fun t ht => ?_
  obtain ⟨r, rfl⟩ := ExpressionRow.exists_stored_eq (h.expressions.typed t ht)
  exact ⟨r, r.ofTuple_stored⟩

/-- The rows that are read of the expressions are kept. -/
theorem keepsExpressions (h : db.MeetsSchema) {rows : List ExpressionRow}
    (hrows : ReadsAs Expression db rows) : db.KeepsExpressions rows := by
  have htuples : db.expressions.tuples = rows.map ExpressionRow.stored := by
    rw [← List.forall₂_eq_eq_eq, List.forall₂_map_right_iff]
    refine (mapM_eq_ok_iff.1 hrows).imp fun t r hread => ?_
    exact ExpressionRow.eq_tuple_of_ofTuple hread
  have hchecked : ∀ r ∈ rows, 1 ≤ r.version ∧ r.createdAt ≤ r.updatedAt := by
    intro r hr
    have hmem : r.stored ∈ db.expressions.tuples := by
      rw [htuples]
      exact List.mem_map_of_mem hr
    exact checks_of_integers (h.expressions.checked _ hmem) rfl rfl rfl
  exact {
    tuples := htuples
    nodup := by
      have hnd := h.expressions.nodup
      rw [htuples, Table.keys_stored ExpressionRow.keyOf_stored] at hnd
      exact hnd.of_map _
    written := fun r hr => (hchecked r hr).1
    stamps := fun r hr => (hchecked r hr).2 }

end Database.MeetsSchema

end AlertRegistry
