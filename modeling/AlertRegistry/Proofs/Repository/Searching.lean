import AlertRegistry.Proofs.Alert.Joined
import AlertRegistry.Proofs.Filter
import AlertRegistry.Proofs.Repository.Paging

/-!
# The exact search

With the case-sensitive strategy a query cannot fail to be evaluated. `Described` says what a kind
of records offers for that: the tuples that are selected are those that the query wants, and of a
tuple that is read it wants the row. `Finds` is what follows for every page: it counts all rows that
the query wants, once each and with or without a side-record, and has a run of them in the order of
their insertion (`Described.finds`). The two statements of a search agree on these rows, although
one selects from the table and the other from a join, and the condition reaches both as a text with
values for its placeholders.
-/

namespace AlertRegistry

section

variable (α : Type) {ρ γ : Type} [Record α ρ γ] (Wanted : Query → Tuple γ → Prop)
  (Matches : Query → ρ → Prop) [∀ q, DecidablePred (Wanted q)] [∀ q, DecidablePred (Matches q)]

/-- The exact search for records of the kind is described by what is wanted of their tuples, and of
their rows. -/
structure Described : Prop where
  /-- The page does not matter. -/
  pageable : Pageable α
  /-- The wanted tuples are selected. -/
  select (q : Query) (ts : List (Tuple γ)) :
    (Record.filter α .caseSensitive q).select ts = .ok (ts.filter (Wanted q))
  /-- What is wanted of a tuple is wanted of its row. -/
  read {db : Database} {t : Tuple γ} {row : ρ} : Record.readRow α db t = .ok row →
    ∀ q, Wanted q t ↔ Matches q row

/-- The pages of a query have the rows that it describes. -/
structure Finds [Layout γ] (s : Store) (q : Query) : Prop where
  /-- The statement that counts gives the number of wanted tuples. It would give the same where
  pages are read from, since there too each tuple stands once. -/
  counts (limit : UInt32) (offset : Option UInt32) :
    ((searchOf α).counted s.view).count
        ((searchOf α).countText .caseSensitive { q with limit, offset })
        ((searchOf α).values .caseSensitive { q with limit, offset })
        = .ok ((Record.table α s.view).tuples.countP (Wanted q))
      ∧ ((searchOf α).paged s.view).count
        ((searchOf α).countText .caseSensitive { q with limit, offset })
        ((searchOf α).values .caseSensitive { q with limit, offset })
        = .ok ((Record.table α s.view).tuples.countP (Wanted q))
  /-- The statement for a page reads a run of the wanted tuples. -/
  reads (limit : UInt32) (offset : Option UInt32) :
    ((searchOf α).paged s.view).page
        ((searchOf α).pageText .caseSensitive { q with limit, offset })
        ((searchOf α).values .caseSensitive { q with limit, offset }
          ++ Search.pageValues { q with limit, offset })
        (searchOf α).readNamed
      = (slice offset limit ((Record.table α s.view).tuples.filter (Wanted q))).mapM
        (Record.readRow α s.view)
  /-- A page counts all wanted tuples and reads a run of them. -/
  tuples (limit : UInt32) (offset : Option UInt32) :
    (s.read (fetchPage α .caseSensitive { q with limit, offset })).1
        = ((slice offset limit ((Record.table α s.view).tuples.filter (Wanted q))).mapM
            (Record.readRow α s.view)).map (fun rows =>
              { rows, total := (Record.table α s.view).tuples.countP (Wanted q) })
      ∧ slice offset limit ((Record.table α s.view).tuples.filter (Wanted q))
        <:+: (Record.table α s.view).tuples.filter (Wanted q)
  /-- If all tuples are read as rows, a page counts those that match and has a run of them. -/
  rows {rows : List ρ} :
    (Record.table α s.view).tuples.mapM (Record.readRow α s.view) = .ok rows →
    ∀ (limit : UInt32) (offset : Option UInt32),
      (s.read (fetchPage α .caseSensitive { q with limit, offset })).1
        = .ok { rows := slice offset limit (rows.filter (Matches q))
                total := rows.countP (Matches q) }
      ∧ slice offset limit (rows.filter (Matches q)) <:+: rows.filter (Matches q)
  /-- An open repository answers with the records of these rows. -/
  answers {rows : List ρ} :
    (Record.table α s.view).tuples.mapM (Record.readRow α s.view) = .ok rows →
    ∀ (limit : UInt32) (offset : Option UInt32) {r : Repository α}, r.state = .opened →
      r.strategy = .caseSensitive → s.poisoned = false →
      ∃ result, (r.query (r.bind { q with limit, offset }) s).result = .ok result
        ∧ result.values = (slice offset limit (rows.filter (Matches q))).filterMap
          (fun row => (Record.ofRow row).toOption)
        ∧ result.total = rows.countP (Matches q)
  /-- The empty needle is as good as none. -/
  emptyNeedle {rows : List ρ} :
    (Record.table α s.view).tuples.mapM (Record.readRow α s.view) = .ok rows →
    ∀ (limit : UInt32) (offset : Option UInt32),
      (s.read (fetchPage α .caseSensitive { q with needle := some "", limit, offset })).1
        = (s.read (fetchPage α .caseSensitive { q with needle := none, limit, offset })).1

end

namespace Described

variable {α ρ γ : Type} [Record α ρ γ] {Wanted : Query → Tuple γ → Prop}
  {Matches : Query → ρ → Prop} [∀ q, DecidablePred (Wanted q)] [∀ q, DecidablePred (Matches q)]
  {s : Store}

omit [∀ q, DecidablePred (Matches q)] in
theorem select_page (h : Described α Wanted Matches) (q : Query) (limit : UInt32)
    (offset : Option UInt32) (ts : List (Tuple γ)) :
    (Record.filter α .caseSensitive { q with limit, offset }).select ts
      = .ok (ts.filter (Wanted q)) := by
  rw [h.pageable, h.select]

omit [∀ q, DecidablePred (Matches q)] in
/-- A page counts all wanted tuples and reads a slice of them. -/
theorem fetch_tuples (h : Described α Wanted Matches) (hunlocked : s.others.wait = false)
    (q : Query) (limit : UInt32) (offset : Option UInt32) :
    (s.read (fetchPage α .caseSensitive { q with limit, offset })).1
      = ((slice offset limit ((Record.table α s.view).tuples.filter (Wanted q))).mapM
          (Record.readRow α s.view)).map fun rows =>
            { rows, total := (Record.table α s.view).tuples.countP (Wanted q) } := by
  rw [Store.read_result hunlocked, fetchPage_of_select (h.select_page q limit offset _),
    List.countP_eq_length_filter]

/-- The wanted tuples are read as the matching rows. -/
theorem mapM_filter (h : Described α Wanted Matches) {db : Database} {ts : List (Tuple γ)}
    {rows : List ρ} (hread : ts.mapM (Record.readRow α db) = .ok rows) (q : Query) :
    List.Forall₂ (fun t row => Record.readRow α db t = .ok row)
      (ts.filter (Wanted q)) (rows.filter (Matches q)) := by
  refine List.rel_filter ?_ (mapM_eq_ok_iff.1 hread)
  intro t row ht
  simpa only [decide_eq_true_iff] using h.read ht q

/-- If all tuples are read as rows, a page counts those that match and has a slice of them. -/
theorem fetch_rows (h : Described α Wanted Matches) (hunlocked : s.others.wait = false)
    {rows : List ρ}
    (hread : (Record.table α s.view).tuples.mapM (Record.readRow α s.view) = .ok rows)
    (q : Query) (limit : UInt32) (offset : Option UInt32) :
    (s.read (fetchPage α .caseSensitive { q with limit, offset })).1
      = .ok { rows := slice offset limit (rows.filter (Matches q))
              total := rows.countP (Matches q) } := by
  have hrows := h.mapM_filter hread q
  have hslice : (slice offset limit ((Record.table α s.view).tuples.filter (Wanted q))).mapM
      (Record.readRow α s.view) = .ok (slice offset limit (rows.filter (Matches q))) :=
    mapM_eq_ok_iff.2 (List.forall₂_take _ (List.forall₂_drop _ hrows))
  rw [h.fetch_tuples hunlocked, hslice, List.countP_eq_length_filter,
    List.countP_eq_length_filter, hrows.length_eq]
  rfl

omit [∀ q, DecidablePred (Matches q)] in
/-- The wanted tuples are counted in the table, and as many where pages are read from. -/
theorem counts (h : Described α Wanted Matches) (db : Database) (q : Query) (limit : UInt32)
    (offset : Option UInt32) :
    ((searchOf α).counted db).count
        ((searchOf α).countText .caseSensitive { q with limit, offset })
        ((searchOf α).values .caseSensitive { q with limit, offset })
        = .ok ((Record.table α db).tuples.countP (Wanted q))
      ∧ ((searchOf α).paged db).count
        ((searchOf α).countText .caseSensitive { q with limit, offset })
        ((searchOf α).values .caseSensitive { q with limit, offset })
        = .ok ((Record.table α db).tuples.countP (Wanted q)) := by
  rw [(searchOf α).count_paged, and_self, (searchOf α).count_counted, h.select_page,
    List.countP_eq_length_filter]
  rfl

theorem finds [Layout γ] (h : Described α Wanted Matches)
    (hempty : ∀ (q : Query) (row : ρ), Matches { q with needle := some "" } row
      ↔ Matches { q with needle := none } row)
    (hunlocked : s.others.wait = false) (q : Query) : Finds α Wanted Matches s q where
  counts := h.counts s.view q
  reads limit offset := (searchOf α).page_paged (h.select_page q limit offset _)
  tuples limit offset := ⟨h.fetch_tuples hunlocked q limit offset, slice_isInfix _ _ _⟩
  rows hread limit offset := ⟨h.fetch_rows hunlocked hread q limit offset, slice_isInfix _ _ _⟩
  answers hread limit offset r ho hstrategy hs := by
    rw [Repository.query_result ho hs, hstrategy, h.fetch_rows hunlocked hread q limit offset]
    exact ⟨_, rfl, Repository.values_decodePage _, rfl⟩
  emptyNeedle hread limit offset := by
    rw [h.fetch_rows hunlocked hread { q with needle := some "" },
      h.fetch_rows hunlocked hread { q with needle := none }]
    simp only [hempty]

end Described

theorem described_alert : Described Alert AlertRow.Wanted AlertRow.Matches where
  pageable := pageable_alert
  select := AlertRow.select_filter
  read hread _ := AlertRow.wanted_iff_matches (AlertRow.textsOf_read hread)

theorem described_expression : Described Expression ExpressionRow.Wanted ExpressionRow.Matches where
  pageable := pageable_expression
  select := ExpressionRow.select_filter
  read hread _ := ExpressionRow.wanted_iff_matches (ExpressionRow.textsOf_ofTuple hread)

/-- The exact search finds the alerts and the expressions that a query describes, and no others. The
alerts are read with all side-records beside them that have their key, if the schema is met. -/
theorem exact_search_finds (s : Store) (hunlocked : s.others.wait = false) (q : Query) :
    Finds Alert AlertRow.Wanted AlertRow.Matches s q
      ∧ Finds Expression ExpressionRow.Wanted ExpressionRow.Matches s q
      ∧ (s.view.MeetsSchema → (searchOf Alert).paged s.view = AlertRow.matchedSource s.view) :=
  ⟨described_alert.finds AlertRow.matches_empty_needle hunlocked q,
    described_expression.finds ExpressionRow.matches_empty_needle hunlocked q,
    fun h => h.joinedSource_eq⟩

/-- An alert with a side-record, one of another cluster, and one without side-record. -/
def searchedRows : List AlertRow :=
  let row : AlertRow :=
    { id := "1", version := 1, name := "load", cluster := "prod", service := "api"
      context := "HOST", metric := "cpu", statistic := "avg", period := "PT60S"
      operator := "LESS_THAN", quantity := "" }
  [{ row with side := some { severity := some "high" } }, { row with id := "2", cluster := "dev" },
    { row with id := "3", name := "cpu", metric := "load" }]

/-- The three alerts. -/
def searchedStore : Store :=
  { committed :=
      { alerts.tuples := searchedRows.map fun r =>
          r.tuple (.integer 1) (.integer 0) (.integer 0)
        sides.tuples := searchedRows.filterMap fun r => r.side.map (SideRecord.tuple r.id) } }

/-- The search for two of the alerts, which contain the needle in the right cluster: its second page
of one row each. -/
def searchedQuery : Query :=
  { needle := some "cpu", cluster := some "prod", limit := 1, offset := some 1 }

/-- Both statements find the two alerts by the text of their condition and the values for it, the
one that counts in the table and in the join. The second page has the other alert. -/
theorem search_finds_two : searchedStore.others.wait = false
    ∧ (searchOf Alert).countText .caseSensitive searchedQuery
      = " WHERE a.cluster = ? AND (instr(a.name, ?) > 0 OR instr(a.cluster, ?) > 0"
        ++ " OR instr(a.service, ?) > 0 OR instr(a.metric, ?) > 0);"
    ∧ (searchOf Alert).values .caseSensitive searchedQuery
      = [.text "prod", .text "cpu", .text "cpu", .text "cpu", .text "cpu"]
    ∧ (AlertRow.source searchedStore.view).count
        ((searchOf Alert).countText .caseSensitive searchedQuery)
        ((searchOf Alert).values .caseSensitive searchedQuery) = .ok 2
    ∧ (AlertRow.joinedSource searchedStore.view).count
        ((searchOf Alert).countText .caseSensitive searchedQuery)
        ((searchOf Alert).values .caseSensitive searchedQuery) = .ok 2
    ∧ (AlertRow.joinedSource searchedStore.view).page
        ((searchOf Alert).pageText .caseSensitive searchedQuery)
        ((searchOf Alert).values .caseSensitive searchedQuery ++ [.integer 1, .integer 1])
        AlertRow.ofNamed = .ok (searchedRows.drop 2)
    ∧ (searchedStore.read (fetchPage Alert .caseSensitive searchedQuery)).1
      = .ok { rows := searchedRows.drop 2, total := 2 } := by
  have hread : searchedStore.view.alerts.tuples.mapM
      (Record.readRow Alert searchedStore.view) = .ok searchedRows := by
    with_unfolding_all rfl
  have hfinds := (exact_search_finds searchedStore rfl
    { needle := some "cpu", cluster := some "prod" }).1
  obtain ⟨htable, hjoin⟩ := hfinds.counts 1 (some 1)
  refine ⟨rfl, by decide +kernel, by decide, htable.trans ?_, hjoin.trans ?_,
    (hfinds.reads 1 (some 1)).trans ?_, (hfinds.rows hread 1 (some 1)).1.trans ?_⟩
  all_goals with_unfolding_all rfl

end AlertRegistry
