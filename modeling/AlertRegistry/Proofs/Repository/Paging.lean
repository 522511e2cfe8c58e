import AlertRegistry.Alert.Record
import AlertRegistry.Expression.Record
import AlertRegistry.Proofs.Filter
import AlertRegistry.Proofs.Page
import AlertRegistry.Proofs.Repository.Operations

/-!
# Reading page by page

A page is read by counting all tuples that a query selects and reading those on it as rows
(`fetchPage_of_select`). What a query selects does not depend on the page that it asks for
(`Pageable`), so that the pages of one store can be compared with each other, and with reading all
selected tuples one after the other.

`Pages` says how the pages belong together: read at the offsets 0, `n`, `2 * n` and so on they are
the selected rows, each once and in their order. It holds for both kinds of records and both
strategies, since all that it takes is what `pageAt_eq` says of one page (`Pageable.pages`).
-/

namespace AlertRegistry

/-! ## One page -/

section

variable {α ρ γ : Type} [Record α ρ γ]

/-- A page has the rows of its slice of the selected tuples, and counts all of them. -/
theorem fetchPage_of_select {strategy : Strategy} {q : Query} {db : Database}
    {selected : List (Tuple γ)}
    (h : (Record.filter α strategy q).select (Record.table α db).tuples = .ok selected) :
    fetchPage α strategy q db
      = ((slice q.offset q.limit selected).mapM (Record.readRow α db)).map
          fun rows => { rows, total := selected.length } := by
  rw [fetchPage_eq_select, h]
  simp only [bind, Except.bind]
  cases (slice q.offset q.limit selected).mapM (Record.readRow α db) <;> rfl

/-- The page that a connection reads at an offset, if so many rows are asked for on each. -/
def Store.pageAt (α : Type) {ρ γ : Type} [Record α ρ γ] (s : Store) (strategy : Strategy)
    (q : Query) (limit : UInt32) (offset : Option UInt32) : Except StoreError (Page ρ) :=
  (s.read (fetchPage α strategy { q.withLimit limit with offset })).1

/-- An open repository answers its own query with the records on the page. -/
theorem Repository.query_result [Layout γ] {r : Repository α} {s : Store} (ho : r.state = .opened)
    (hs : s.poisoned = false) (q : Query) :
    (r.query (r.bind q) s).result
      = match (s.read (fetchPage α r.strategy q)).1 with
        | .ok page => .ok (decodePage page).1
        | .error e => .error (.access (.store e)) := by
  unfold query bind
  rw [whenOpen_of_opened ho, if_neg (not_not.2 rfl)]
  dsimp only
  rw [whenSound_of_sound hs]
  obtain ⟨page, s'⟩ := s.read (fetchPage α r.strategy q)
  cases page <;> rfl

end

/-! ## All pages -/

/-- What a query selects does not depend on the page that it asks for. -/
def Pageable (α : Type) {ρ γ : Type} [Record α ρ γ] : Prop :=
  ∀ (strategy : Strategy) (q : Query) (limit : UInt32) (offset : Option UInt32),
    Record.filter α strategy { q with limit, offset } = Record.filter α strategy q

/-- The pages of a store belong together: `selected` are the tuples that the query selects, and
`limit` rows are asked for on each page. -/
structure Pages (α : Type) {ρ γ : Type} [Layout γ] [Record α ρ γ] (s : Store)
    (strategy : Strategy) (q : Query) (limit : UInt32) (selected : List (Tuple γ)) : Prop where
  /-- The tuples that satisfy the query are selected, in the order of their insertion. -/
  matching : selected = (Record.table α s.view).tuples.filter fun t =>
    ((Record.filter α strategy q).holds t).toOption = some true
  /-- As many rows are on a page as are asked for, but at least one. -/
  size : rowsPerPage limit = max limit.toNat 1
  /-- The numbers that select a page stay in range. -/
  inRange (o : UInt32) : (pageIndex (some o) limit).toNat = o.toNat / rowsPerPage limit
    ∧ (pageIndex (some o) limit).toNat * rowsPerPage limit ≤ o.toNat ∧ o.toNat < 2 ^ 32
  /-- The page starts at a multiple of its size. -/
  reads (o : UInt32) : s.pageAt α strategy q limit (some o)
    = (((selected.drop (rowsPerPage limit * (o.toNat / rowsPerPage limit))).take
          (rowsPerPage limit)).mapM (Record.readRow α s.view)).map
        fun rows => { rows, total := selected.length }
  /-- If all selected tuples are read as rows, so is every page. -/
  whole {rows : List ρ} (o : UInt32) : selected.mapM (Record.readRow α s.view) = .ok rows →
    s.pageAt α strategy q limit (some o) = .ok {
      rows := (rows.drop (rowsPerPage limit * (o.toNat / rowsPerPage limit))).take
        (rowsPerPage limit)
      total := selected.length }
  /-- The pages at the multiples of their size are the selected rows. -/
  tile : ((alignedOffsets (rowsPerPage limit) selected.length).mapM fun o =>
      (s.pageAt α strategy q limit (some (UInt32.ofNat o))).map Page.rows).map List.flatten
    = selected.mapM (Record.readRow α s.view)
  /-- Every page counts all selected rows. -/
  total {offset : Option UInt32} {page : Page ρ} :
    s.pageAt α strategy q limit offset = .ok page → page.total = selected.length
  /-- A page that another one follows is full. -/
  full {o : UInt32} {page : Page ρ} : rowsPerPage limit ∣ o.toNat →
    o.toNat + rowsPerPage limit < selected.length →
    s.pageAt α strategy q limit (some o) = .ok page → page.rows.length = rowsPerPage limit
  /-- The last page has the remaining rows, at least one. -/
  last {o : UInt32} {page : Page ρ} : rowsPerPage limit ∣ o.toNat →
    o.toNat < selected.length → selected.length ≤ o.toNat + rowsPerPage limit →
    s.pageAt α strategy q limit (some o) = .ok page →
    page.rows.length = selected.length - o.toNat ∧ 0 < page.rows.length
  /-- An offset selects the same page as the one where the page starts. -/
  unaligned (o : UInt32) : s.pageAt α strategy q limit (some o)
    = s.pageAt α strategy q limit
        (some (UInt32.ofNat (rowsPerPage limit * (o.toNat / rowsPerPage limit))))
  /-- The row at the offset is on the page. -/
  holds {o : UInt32} {page : Page ρ} {t : Tuple γ} : selected[o.toNat]? = some t →
    s.pageAt α strategy q limit (some o) = .ok page →
    ∃ row, page.rows[o.toNat % rowsPerPage limit]? = some row
      ∧ Record.readRow α s.view t = .ok row
  /-- Without an offset the first page is read. -/
  first : s.pageAt α strategy q limit none = s.pageAt α strategy q limit (some 0)
  /-- Beyond the last row there is an empty page. -/
  beyond {o : UInt32} : selected.length ≤ rowsPerPage limit * (o.toNat / rowsPerPage limit) →
    s.pageAt α strategy q limit (some o) = .ok { rows := [], total := selected.length }
  /-- An open repository answers with the records on the page. -/
  answered {r : Repository α} (offset : Option UInt32) : r.state = .opened →
    r.strategy = strategy → s.poisoned = false →
    (r.query (r.bind { q.withLimit limit with offset }) s).result
      = match s.pageAt α strategy q limit offset with
        | .ok page => .ok (Repository.decodePage page).1
        | .error e => .error (.access (.store e))

/-- The connection is free to read, and the query selects these of the tuples that it sees. -/
structure Selects (α : Type) {ρ γ : Type} [Record α ρ γ] (s : Store) (strategy : Strategy)
    (q : Query) (selected : List (Tuple γ)) : Prop where
  /-- Nobody waits for the readers to end. -/
  unlocked : s.others.wait = false
  /-- The query can be evaluated. -/
  select : (Record.filter α strategy q).select (Record.table α s.view).tuples = .ok selected

section

variable {α ρ γ : Type} [Record α ρ γ] {s : Store} {strategy : Strategy} {q : Query}
  {limit : UInt32} {selected : List (Tuple γ)}

theorem pageAt_eq (hp : Pageable α) (h : Selects α s strategy q selected)
    (offset : Option UInt32) :
    s.pageAt α strategy q limit offset
      = ((slice offset limit selected).mapM (Record.readRow α s.view)).map
          fun rows => { rows, total := selected.length } := by
  have hselect : (Record.filter α strategy { q.withLimit limit with offset }).select
      (Record.table α s.view).tuples = .ok selected := by
    rw [← h.select]
    exact congrArg (Filter.select · _) (hp strategy q (max limit 1) offset)
  -- the limit is raised to 1 once more when the page is cut out
  have hslice : slice ({ q.withLimit limit with offset } : Query).offset
      ({ q.withLimit limit with offset } : Query).limit selected = slice offset limit selected :=
    slice_max offset limit selected
  unfold Store.pageAt
  rw [Store.read_result h.unlocked, fetchPage_of_select hselect, hslice]

/-- The rows of a page are those that its slice of the selected tuples is read as. -/
theorem forall₂_of_pageAt (hp : Pageable α) (h : Selects α s strategy q selected)
    {offset : Option UInt32} {page : Page ρ}
    (hpage : s.pageAt α strategy q limit offset = .ok page) :
    List.Forall₂ (fun t row => Record.readRow α s.view t = .ok row)
        (slice offset limit selected) page.rows
      ∧ page.total = selected.length := by
  rw [pageAt_eq hp h] at hpage
  cases hrows : (slice offset limit selected).mapM (Record.readRow α s.view) with
  | error e =>
    rw [hrows] at hpage
    cases hpage
  | ok rows =>
    rw [hrows] at hpage
    cases hpage
    exact ⟨mapM_eq_ok_iff.1 hrows, rfl⟩

theorem length_of_pageAt (hp : Pageable α) (h : Selects α s strategy q selected) {o : UInt32}
    (hdvd : rowsPerPage limit ∣ o.toNat) {page : Page ρ}
    (hpage : s.pageAt α strategy q limit (some o) = .ok page) :
    page.rows.length = min (rowsPerPage limit) (selected.length - o.toNat) := by
  rw [← (forall₂_of_pageAt hp h hpage).1.length_eq, length_slice, rowsBefore_of_dvd hdvd]

theorem Pageable.pages [Layout γ] (hp : Pageable α) (h : Selects α s strategy q selected)
    (hlength : selected.length < 2 ^ 32) : Pages α s strategy q limit selected where
  matching := Filter.eq_filter_of_select h.select
  size := rowsPerPage_eq limit
  inRange o := ⟨toNat_pageIndex o limit, rowsBefore_le o limit, o.toNat_lt⟩
  reads o := by rw [pageAt_eq hp h, slice_eq, rowsBefore_some]
  whole {rows} o hrows := by
    have hslice : (slice (some o) limit selected).mapM (Record.readRow α s.view)
        = .ok (slice (some o) limit rows) :=
      mapM_eq_ok_iff.2 (List.forall₂_take _ (List.forall₂_drop _ (mapM_eq_ok_iff.1 hrows)))
    rw [pageAt_eq hp h, hslice, slice_eq, rowsBefore_some]
    rfl
  tile := by
    have hrows : ∀ o : Nat, (s.pageAt α strategy q limit (some (UInt32.ofNat o))).map Page.rows
        = (slice (some (UInt32.ofNat o)) limit selected).mapM (Record.readRow α s.view) := by
      intro o
      rw [pageAt_eq hp h]
      cases (slice (some (UInt32.ofNat o)) limit selected).mapM (Record.readRow α s.view) <;> rfl
    simp only [hrows]
    rw [← mapM_flatMap, flatMap_slice hlength]
  total hpage := (forall₂_of_pageAt hp h hpage).2
  full hdvd hnext hpage := by
    rw [length_of_pageAt hp h hdvd hpage]
    omega
  last hdvd hstart hend hpage := by
    rw [length_of_pageAt hp h hdvd hpage]
    omega
  unaligned o := by
    rw [pageAt_eq hp h, pageAt_eq hp h, slice_eq, slice_eq, ← rowsBefore_some, rowsBefore_start]
  holds {o page t} ht hpage := by
    have hrows := (forall₂_of_pageAt hp h hpage).1
    rw [← getElem?_slice o limit] at ht
    obtain ⟨hi, rfl⟩ := List.getElem?_eq_some_iff.1 ht
    have hi' : o.toNat % rowsPerPage limit < page.rows.length := hrows.length_eq ▸ hi
    exact ⟨page.rows[o.toNat % rowsPerPage limit], List.getElem?_eq_getElem hi',
      hrows.get hi hi'⟩
  first := by
    have hzero : rowsBefore (some 0) limit = rowsBefore none limit := by
      rw [rowsBefore_none]
      exact Nat.le_zero.1 (rowsBefore_le 0 limit)
    rw [pageAt_eq hp h, pageAt_eq hp h, slice_eq, slice_eq, hzero]
  beyond {o} hbeyond := by
    rw [← rowsBefore_some] at hbeyond
    rw [pageAt_eq hp h, slice_eq_nil hbeyond]
    rfl
  answered {r} offset ho hstrategy hs := by
    subst hstrategy
    exact Repository.query_result ho hs { q.withLimit limit with offset }

end

theorem pageable_alert : Pageable Alert := fun _ _ _ _ => rfl

theorem pageable_expression : Pageable Expression := fun _ _ _ _ => rfl

/-- The pages of alerts and of expressions are the selected rows cut into pieces of one size,
whatever is selected. -/
theorem pages_tile_selection (s : Store) (strategy : Strategy) (q : Query) (limit : UInt32) :
    (∀ selected : List (Tuple AlertColumn), Selects Alert s strategy q selected →
      selected.length < 2 ^ 32 → Pages Alert s strategy q limit selected)
    ∧ ∀ selected : List (Tuple ExpressionColumn), Selects Expression s strategy q selected →
      selected.length < 2 ^ 32 → Pages Expression s strategy q limit selected :=
  ⟨fun _ h hlength => pageable_alert.pages h hlength,
    fun _ h hlength => pageable_expression.pages h hlength⟩

/-- Three expressions with the same text in different columns. -/
def containedRows : List ExpressionRow :=
  let row : ExpressionRow :=
    { id := "1", version := 1, cluster := "c", service := "s", metric := "m", script := "" }
  [{ row with cluster := "contained" }, { row with id := "2", service := "contained" },
    { row with id := "3", metric := "contained" }]

/-- The expressions as tuples. -/
def containedTuples : List (Tuple ExpressionColumn) :=
  containedRows.map fun r => r.tuple (.integer 1) (.integer 0) (.integer 0)

/-- The three expressions after another one that does not have the text. -/
def containedStore : Store :=
  let other : ExpressionRow :=
    { id := "0", version := 1, cluster := "c", service := "s", metric := "m", script := "" }
  { committed.expressions.tuples :=
      other.tuple (.integer 1) (.integer 0) (.integer 0) :: containedTuples }

/-- Two rows on a page: the offset 3 selects the second page, on which is the last of the three
rows that have the text. -/
theorem third_row_is_on_second_page :
    Selects Expression containedStore .caseSensitive { needle := some "contained" } containedTuples
      ∧ containedStore.pageAt Expression .caseSensitive { needle := some "contained" } 2 (some 3)
        = .ok { rows := containedRows.drop 2, total := 3 } := by
  have hselects : Selects Expression containedStore .caseSensitive
      { needle := some "contained" } containedTuples :=
    ⟨rfl, by with_unfolding_all rfl⟩
  have hrows : containedTuples.mapM (Record.readRow Expression containedStore.view)
      = .ok containedRows := by
    with_unfolding_all rfl
  have hpages := (pages_tile_selection containedStore .caseSensitive
    { needle := some "contained" } 2).2 containedTuples hselects (by decide)
  exact ⟨hselects, hpages.whole 3 hrows⟩

end AlertRegistry
