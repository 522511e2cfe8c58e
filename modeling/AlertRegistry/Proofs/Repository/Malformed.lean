import AlertRegistry.Proofs.Repository.Run
import AlertRegistry.Proofs.Repository.Searching
import AlertRegistry.Proofs.Schema

/-!
# Rows that denote no record

The texts of a row may be anything: the schema does not keep a period from being `soon`. Such a row
denotes no record, and `Tolerates` says that it harms nothing else. It is absent for `get` and
`query`, which report it and nothing more, but it still has a place on its page, is counted, and
counts for the etag; the other rows denote what they do without it; and an upsert under its key
puts a record in its place.

All of this is read off the replies to the operations (`Repository.get_reply`,
`Repository.query_reply`, `Repository.get_upsert`), which are about raw rows throughout:
`malformed_rows_are_harmless` is about both kinds of records.
-/

namespace AlertRegistry

open Repository (dropReport)
open StoredRecord (Keeps Admits)

/-- The lines about faults. -/
def faults (events : List Event) : List Event :=
  events.filter fun e => e.level = .error

/-- An open repository answers on rows of which any may denote no record, and `Matches` says which
ones a query without needle asks for. -/
structure Tolerates (α : Type) {ρ γ : Type} [Layout γ] [Record α ρ γ] [StoredRecord α ρ γ]
    (Matches : Query → ρ → Prop) [∀ q, DecidablePred (Matches q)] (s : Store) (rows : List ρ) :
    Prop where
  /-- The record with an identifier is the one that a row under the text of the identifier denotes.
  If there is a row but no record, that is reported. -/
  get (r : Repository α) (id : Uuid) : r.state = .opened →
    ∃ found, (r.get id s).result = .ok found
      ∧ (∀ a, found = some a ↔
        ∃ row ∈ rows, Record.key α row = toString id ∧ Record.ofRow row = .ok a)
      ∧ faults (r.get id s).events
        = (rows.filter fun row => Record.key α row = toString id).filterMap (dropReport α)
  /-- A query has a record for each row of its page that denotes one, and a report for each other
  row. Total and etag are about all rows. -/
  query (r : Repository α) (q : BoundQuery) : r.state = .opened → q.owner = r.identity →
    q.query.needle = none →
    ∃ found page, (r.query q s).result = .ok found
      ∧ page = slice q.query.offset q.query.limit (rows.filter (Matches q.query))
      ∧ found.values = page.filterMap (fun row => (Record.ofRow row).toOption)
      ∧ found.total = rows.countP (Matches q.query)
      ∧ found.etag = etagOfStamps (page.map (Record.stamps α))
      ∧ faults (r.query q s).events = page.filterMap (dropReport α)
  /-- On a store that differs in some rows only, the records with other identifiers are the same,
  and a query that returns all rows at once has the same records for the other rows. -/
  others {s' : Store} {before changed changed' later : List ρ} (r : Repository α) :
    rows = before ++ changed ++ later → s'.Idle → s'.committed.MeetsSchema →
    ReadsAs α s'.committed (before ++ changed' ++ later) → r.state = .opened →
    (∀ id, (∀ row ∈ changed ++ changed', Record.key α row ≠ toString id) →
        (r.get id s').result = (r.get id s).result)
      ∧ ∀ q : BoundQuery, q.owner = r.identity → q.query.needle = none →
        rowsBefore q.query.offset q.query.limit = 0 →
        max rows.length (before ++ changed' ++ later).length ≤ rowsPerPage q.query.limit →
        ∃ found found', (r.query q s).result = .ok found ∧ (r.query q s').result = .ok found'
          ∧ ∃ first last,
            found.values = first
              ++ (changed.filter (Matches q.query)).filterMap
                (fun row => (Record.ofRow row).toOption) ++ last
            ∧ found'.values = first
              ++ (changed'.filter (Matches q.query)).filterMap
                (fun row => (Record.ofRow row).toOption) ++ last
  /-- A record that is written under the key of a row, whether this denotes a record or not, is an
  update and is read back afterwards. -/
  upsert (r r' : Repository α) (now : Int) (a : α) (row : ρ) : r.state = .opened →
    r'.state = .opened → Admits α s.committed →
    (∀ old ∈ rows, Record.version α old < Text.maxInt64) → Record.toRow a = .ok row →
    (∃ old ∈ rows, Record.key α old = toString (Record.id a)) →
    (r.upsert now a s).result = .ok .updated
      ∧ ∃ b, readBack a = some b
        ∧ (r'.get (Record.id a) (r.upsert now a s).store).result = .ok (some b)

/-! ## Faults -/

section

variable {α ρ γ : Type} [Record α ρ γ]

/-- Every line about a row that denotes no record is about a fault. -/
theorem faults_dropReports (rows : List ρ) :
    faults (rows.filterMap (dropReport α)) = rows.filterMap (dropReport α) := by
  unfold faults
  rw [List.filter_eq_self]
  intro e he
  obtain ⟨row, _, hrow⟩ := List.mem_filterMap.1 he
  unfold dropReport at hrow
  split at hrow
  · cases hrow
  · cases hrow
    rfl

/-- The outcome of a query is none. -/
theorem faults_queryReport (result : QueryResult α) :
    faults (Repository.queryReport result) = [] := by
  unfold Repository.queryReport
  split <;> rfl

end

/-! ## Replies on raw rows -/

section

variable {α ρ γ : Type} [Record α ρ γ]

/-- The row under a key does not depend on rows under other keys. -/
theorem rowAt_append_of_ne {before changed changed' later : List ρ} {key : String}
    (h : ∀ row ∈ changed ++ changed', Record.key α row ≠ key) :
    rowAt α key (before ++ changed' ++ later) = rowAt α key (before ++ changed ++ later) := by
  rw [List.forall_mem_append] at h
  have hnone : ∀ us : List ρ, (∀ row ∈ us, Record.key α row ≠ key) →
      us.find? (fun row => Record.key α row = key) = none := by
    intro us hus
    rw [List.find?_eq_none]
    exact fun row hrow hkey => hus row hrow (of_decide_eq_true hkey)
  unfold rowAt
  rw [List.find?_append, List.find?_append, List.find?_append, List.find?_append,
    hnone changed h.1, hnone changed' h.2]

end

section

variable {α ρ γ : Type} [Layout γ] [Record α ρ γ] [StoredRecord α ρ γ] [LawfulRecord α ρ γ]
  {s : Store} {rows : List ρ} {r : Repository α}

theorem get_of_keeps (hs : s.Idle) (hk : Keeps α s.committed rows) (ho : r.state = .opened)
    (id : Uuid) :
    ∃ found, (r.get id s).result = .ok found
      ∧ (∀ a, found = some a ↔
        ∃ row ∈ rows, Record.key α row = toString id ∧ Record.ofRow row = .ok a)
      ∧ faults (r.get id s).events
        = (rows.filter fun row => Record.key α row = toString id).filterMap (dropReport α) := by
  have hfilter : rows.filter (fun row => Record.key α row = toString id)
      = (rowAt α (toString id) rows).toList := Keyed.filter_eq_find? (LawfulRecord.nodup hk) _
  have hreports : ((rowAt α (toString id) rows).bind (dropReport α)).toList
      = (rowAt α (toString id) rows).toList.filterMap (dropReport α) := by
    rw [Option.toList_bind, List.filterMap_eq_flatMap_toList]
    rfl
  rw [Repository.get_reply hs hk ho, hfilter, hreports]
  refine ⟨_, rfl, fun a => ?_, faults_dropReports _⟩
  simp only [Option.bind_eq_some_iff, rowAt_eq_some_iff hk, toOption_eq_some_iff, and_assoc]

theorem upsert_of_keeps (h : Ready α s rows) {r' : Repository α} (ho : r.state = .opened)
    (ho' : r'.state = .opened) (now : Int) {a : α} {row : ρ}
    (hmax : ∀ old ∈ rows, Record.version α old < Text.maxInt64) (ha : Record.toRow a = .ok row)
    (hold : ∃ old ∈ rows, Record.key α old = toString (Record.id a)) :
    (r.upsert now a s).result = .ok .updated
      ∧ ∃ b, readBack a = some b
        ∧ (r'.get (Record.id a) (r.upsert now a s).store).result = .ok (some b) := by
  obtain ⟨b, hb, _⟩ := LawfulRecord.readable ha
  refine ⟨?_, b, ?_, Repository.get_upsert h ho ho' now ha hb hmax⟩
  · rw [(Repository.upsert_spec h ho now ha hmax).1, LawfulRecord.key_toRow ha,
      if_pos (List.mem_map.2 hold)]
  · unfold readBack
    rw [ha]
    show (Record.ofRow row).toOption = some b
    rw [hb]
    rfl

end

/-! ## Queries without needle -/

section

variable {α ρ γ : Type} [Record α ρ γ]

/-- How needles are looked for makes no difference if there is none. -/
def IgnoresStrategy (α : Type) {ρ γ : Type} [Record α ρ γ] : Prop :=
  ∀ (strategy : Strategy) (q : Query), q.needle = none →
    Record.filter α strategy q = Record.filter α .caseSensitive q

theorem ignoresStrategy_alert : IgnoresStrategy Alert := by
  intro strategy q hq
  show AlertRow.filter strategy q = AlertRow.filter .caseSensitive q
  unfold AlertRow.filter
  rw [hq]
  rfl

theorem ignoresStrategy_expression : IgnoresStrategy Expression := by
  intro strategy q hq
  show ExpressionRow.filter strategy q = ExpressionRow.filter .caseSensitive q
  unfold ExpressionRow.filter
  rw [hq]
  rfl

variable {Wanted : Query → Tuple γ → Prop} {Matches : Query → ρ → Prop}
  [∀ q, DecidablePred (Wanted q)] [∀ q, DecidablePred (Matches q)]
  {s : Store} {rows : List ρ} {r : Repository α}

/-- A page of a query without needle has the matching rows, whatever they denote. -/
theorem Described.fetchPage_eq (h : Described α Wanted Matches) (hignores : IgnoresStrategy α)
    {db : Database} (hrows : ReadsAs α db rows) (strategy : Strategy) {q : Query}
    (hq : q.needle = none) :
    fetchPage α strategy q db
      = .ok { rows := slice q.offset q.limit (rows.filter (Matches q))
              total := rows.countP (Matches q) } := by
  have hexact : fetchPage α strategy q db = fetchPage α .caseSensitive q db := by
    rw [fetchPage_eq_select, fetchPage_eq_select, hignores strategy q hq]
  rw [hexact]
  exact h.fetch_rows (s := { committed := db }) rfl hrows q q.limit q.offset

theorem Described.query_of_readsAs (h : Described α Wanted Matches) (hignores : IgnoresStrategy α)
    (hs : s.Idle) (hrows : ReadsAs α s.committed rows) (ho : r.state = .opened) {q : BoundQuery}
    (hb : q.owner = r.identity) (hq : q.query.needle = none) :
    ∃ found page, (r.query q s).result = .ok found
      ∧ page = slice q.query.offset q.query.limit (rows.filter (Matches q.query))
      ∧ found.values = page.filterMap (fun row => (Record.ofRow row).toOption)
      ∧ found.total = rows.countP (Matches q.query)
      ∧ found.etag = etagOfStamps (page.map (Record.stamps α))
      ∧ faults (r.query q s).events = page.filterMap (dropReport α) := by
  have hpage := h.fetchPage_eq hignores hrows r.strategy hq
  rw [← hs.view_eq] at hpage
  rw [Repository.query_reply hs.toAlone ho hb hpage (Repository.decodePage_eq _)]
  refine ⟨_, _, rfl, rfl, rfl, rfl, rfl, ?_⟩
  unfold faults
  rw [List.filter_append, List.filter_append]
  show [] ++ faults _ ++ faults _ = _
  rw [faults_dropReports, faults_queryReport, List.nil_append, List.append_nil]

/-- A page that is large enough for all rows has the records of all matching rows. -/
theorem Described.query_all (h : Described α Wanted Matches) (hignores : IgnoresStrategy α)
    (hs : s.Idle) (hrows : ReadsAs α s.committed rows) (ho : r.state = .opened) {q : BoundQuery}
    (hb : q.owner = r.identity) (hq : q.query.needle = none)
    (hfirst : rowsBefore q.query.offset q.query.limit = 0)
    (hlen : rows.length ≤ rowsPerPage q.query.limit) :
    ∃ found, (r.query q s).result = .ok found
      ∧ found.values = (rows.filter (Matches q.query)).filterMap
        (fun row => (Record.ofRow row).toOption) := by
  obtain ⟨found, page, hfound, rfl, hvalues, -⟩ := h.query_of_readsAs hignores hs hrows ho hb hq
  rw [slice_eq_self hfirst ((List.length_filter_le _ _).trans hlen)] at hvalues
  exact ⟨found, hfound, hvalues⟩

end

/-! ## Both kinds of records -/

section

variable {α ρ γ : Type} [Layout γ] [Record α ρ γ] [StoredRecord α ρ γ] [LawfulRecord α ρ γ]
  {Wanted : Query → Tuple γ → Prop} {Matches : Query → ρ → Prop}
  [∀ q, DecidablePred (Wanted q)] [∀ q, DecidablePred (Matches q)] {s : Store} {rows : List ρ}

theorem Described.tolerates (h : Described α Wanted Matches) (hignores : IgnoresStrategy α)
    (hkeeps : ∀ {db : Database} {rows : List ρ}, db.MeetsSchema → ReadsAs α db rows →
      Keeps α db rows) (hs : s.Idle) (hdb : s.committed.MeetsSchema)
    (hrows : ReadsAs α s.committed rows) : Tolerates α Matches s rows where
  get r id ho := get_of_keeps hs (hkeeps hdb hrows) ho id
  query r q ho hb hq := h.query_of_readsAs hignores hs hrows ho hb hq
  others {s' before changed changed' later} r hsplit hs' hdb' hrows' ho := by
    subst hsplit
    constructor
    · intro id hid
      rw [Repository.get_reply hs (hkeeps hdb hrows) ho,
        Repository.get_reply hs' (hkeeps hdb' hrows') ho, rowAt_append_of_ne hid]
    · intro q hb hq hfirst hlen
      obtain ⟨found, hfound, hvalues⟩ := h.query_all hignores hs hrows ho hb hq hfirst
        ((Nat.le_max_left _ _).trans hlen)
      obtain ⟨found', hfound', hvalues'⟩ := h.query_all hignores hs' hrows' ho hb hq hfirst
        ((Nat.le_max_right _ _).trans hlen)
      simp only [List.filter_append, List.filterMap_append] at hvalues hvalues'
      exact ⟨found, found', hfound, hfound', _, _, hvalues, hvalues'⟩
  upsert r r' now a row ho ho' hadmits hmax ha hold :=
    upsert_of_keeps { toIdle := hs, keeps := hkeeps hdb hrows, admits := hadmits } ho ho' now hmax
      ha hold

end

/-- Rows that denote no record harm nothing but themselves, whether they are alerts or expressions,
and are mended by the next write. What is read back then is the alert up to the number of its
threshold and the form of its extension map, and the expression as it is. -/
theorem malformed_rows_are_harmless (s : Store) (hs : s.Idle) (h : s.committed.MeetsSchema) :
    (∃ rows, ReadsAs Alert s.committed rows ∧ Tolerates Alert AlertRow.Matches s rows)
    ∧ (∃ rows, ReadsAs Expression s.committed rows
      ∧ Tolerates Expression ExpressionRow.Matches s rows)
    ∧ (∀ (a : Alert) (row : AlertRow), Record.toRow a = .ok row →
      ∃ side b x, SideRecord.ofExtensions a.extensions = .ok side
        ∧ Decimal.Binary.ofFloat? a.threshold.value = some b
        ∧ Double.Denotes x b.negative (Json.readBack b)
        ∧ readBack a = some (AlertRow.restored a side x))
    ∧ ∀ x : Expression, readBack x = some x := by
  refine ⟨?_, ?_, ?_, ?_⟩
  · obtain ⟨rows, hrows⟩ := h.exists_readsAs_alert
    exact ⟨rows, hrows, described_alert.tolerates ignoresStrategy_alert
      (fun hdb hread => hdb.keepsAlerts hread) hs h hrows⟩
  · obtain ⟨rows, hrows⟩ := h.exists_readsAs_expression
    exact ⟨rows, hrows, described_expression.tolerates ignoresStrategy_expression
      (fun hdb hread => hdb.keepsExpressions hread) hs h hrows⟩
  · exact fun a row ha => exists_readBack_alert ha
  · exact readBack_expression

/-- The row of an alert whose period is none. -/
def spoiledRow : AlertRow where
  id := toString AlertRow.watchedAlert.id
  version := 4
  createdAt := 1
  updatedAt := 3
  name := "load"
  cluster := "main"
  service := "web"
  context := "HOST"
  metric := "load"
  statistic := "avg"
  period := "soon"
  operator := "GREATER_THAN"
  quantity := ""

/-- The row is all that the store has. -/
def spoiledStore : Store where
  committed := { alerts := { tuples := [spoiledRow.stored] } }

theorem spoiledStore_meetsSchema : spoiledStore.committed.MeetsSchema where
  alerts := {
    typed := List.forall_mem_singleton.2 spoiledRow.isTyped_stored
    checked := List.forall_mem_singleton.2 fun k hk => by
      rcases List.mem_pair.1 hk with rfl | rfl <;> rfl
    nodup := List.nodup_singleton _ }
  sides := ⟨nofun, nofun, .nil⟩
  expressions := ⟨nofun, nofun, .nil⟩
  referenced := List.nil_subset _

/-- The alert is absent, and the fault is reported once, until it is written again. -/
theorem spoiled_alert_is_mended : spoiledStore.Idle ∧ spoiledStore.committed.MeetsSchema
    ∧ (Repository.openAlerts.get AlertRow.watchedAlert.id spoiledStore).result = .ok none
    ∧ (faults (Repository.openAlerts.get AlertRow.watchedAlert.id spoiledStore).events).length = 1
    ∧ (Repository.openAlerts.upsert 9 AlertRow.watchedAlert spoiledStore).result = .ok .updated
    ∧ ∃ b, readBack AlertRow.watchedAlert = some b
      ∧ (Repository.openAlerts.get AlertRow.watchedAlert.id
        (Repository.openAlerts.upsert 9 AlertRow.watchedAlert spoiledStore).store).result
        = .ok (some b) := by
  have hidle : spoiledStore.Idle := ⟨⟨rfl, nofun, rfl⟩, rfl⟩
  obtain ⟨rows, hrows, htolerates⟩ :=
    (malformed_rows_are_harmless spoiledStore hidle spoiledStore_meetsSchema).1
  obtain rfl : [spoiledRow] = rows := by
    have hread : ReadsAs Alert spoiledStore.committed [spoiledRow] := rfl
    exact Except.ok.inj (hread.symm.trans hrows)
  obtain ⟨found, hfound, hrecord, hfaults⟩ :=
    htolerates.get Repository.openAlerts AlertRow.watchedAlert.id rfl
  have hnone : found = none := by
    rw [Option.eq_none_iff_forall_ne_some]
    intro a ha
    obtain ⟨row, hrow, _, hof⟩ := (hrecord a).1 ha
    obtain rfl := List.mem_singleton.1 hrow
    cases hof
  obtain ⟨hupdated, hback⟩ := htolerates.upsert Repository.openAlerts Repository.openAlerts 9
    AlertRow.watchedAlert _ rfl rfl ⟨fun _ => rfl, fun _ => rfl⟩
    (List.forall_mem_singleton.2 (by decide)) AlertRow.ofAlert_watchedAlert
    ⟨spoiledRow, List.mem_singleton_self _, rfl⟩
  refine ⟨hidle, spoiledStore_meetsSchema, hnone ▸ hfound, ?_, hupdated, hback⟩
  rw [hfaults]
  rfl

end AlertRegistry
