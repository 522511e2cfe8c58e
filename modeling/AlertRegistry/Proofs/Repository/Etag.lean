import AlertRegistry.Proofs.Repository.Errands
import AlertRegistry.Proofs.Repository.Guard
import AlertRegistry.Proofs.Repository.Paging

/-!
# What etags tell

The etag of a page is the newest stamp of its tuples (`etag_eq`), so it tells of a write
if that was read off the clock after the first etag (`later_writes_change_etag`). A write in the
same millisecond, or one that is behind the stamps on the page, is not told
(`etag_hides_changes`).

On a page of all records the etag follows the writes (`FollowsPage`): it never goes back, stays the
same text while nothing on the page is written, and is the time of a write right after it.
-/

namespace AlertRegistry

open Repository (openAlerts)
open StoredRecord (Admits Keeps)
open Table (Aged IsUnder Orderly StampedSince StampsBy keyOf keys newest stampOf? stampsOf?)

/-! ## The etag of a page -/

section

variable {α ρ γ : Type} [Record α ρ γ]

/-- The tuples are read as the rows, one by one. -/
abbrev AreRead (α : Type) {ρ γ : Type} [Record α ρ γ] (db : Database) (ts : List (Tuple γ))
    (rows : List ρ) : Prop :=
  List.Forall₂ (fun t row => Record.readRow α db t = .ok row) ts rows

/-- A page was read from the slice of what is selected. -/
theorem fetchPage_eq_ok {strategy : Strategy} {q : Query} {db : Database} {page : Page ρ}
    (h : fetchPage α strategy q db = .ok page) :
    ∃ selected, (Record.filter α strategy q).select (Record.table α db).tuples = .ok selected
      ∧ AreRead α db (slice q.offset q.limit selected) page.rows := by
  rw [fetchPage_eq_select] at h
  obtain ⟨selected, hselect, h⟩ := bind_eq_ok h
  obtain ⟨rows, hrows, h⟩ := bind_eq_ok h
  cases h
  exact ⟨selected, hselect, mapM_eq_ok_iff.1 hrows⟩

variable [Layout γ] [Versioned γ] [Stamped γ] [StampedRecord α ρ γ] {db : Database}
  {ts : List (Tuple γ)} {rows : List ρ}

namespace AreRead

theorem stamps_eq (h : AreRead α db ts rows) :
    rows.map (Record.stamps α) = ts.filterMap stampsOf? := by
  induction h with
  | nil => rfl
  | cons hread _ ih =>
    rw [List.map_cons, List.filterMap_cons_some (StampedRecord.readRow hread).2, ih]

theorem keys_eq (h : AreRead α db ts rows) :
    keys ts = (rows.map (Record.key α)).map .text := by
  induction h with
  | nil => rfl
  | cons hread _ ih =>
    show keyOf _ :: keys _ = _
    rw [ih, (StampedRecord.readRow hread).1]
    rfl

/-- What was read has a stamp. -/
theorem exists_stamp (h : AreRead α db ts rows) {t : Tuple γ} (ht : t ∈ ts) :
    ∃ m, stampOf? t = some m := by
  induction h with
  | nil => cases ht
  | cons hread _ ih =>
    rcases List.mem_cons.1 ht with rfl | ht
    · exact ⟨_, congrArg (Option.map _) (StampedRecord.readRow hread).2⟩
    · exact ih ht

end AreRead

variable {page : Page ρ}

/-- The etag of a page is the newest stamp of its tuples, whether these denote records or not. -/
theorem etag_eq (h : AreRead α db ts page.rows) :
    Page.etag α page = String.ofList (Text.hexOfNat (newest ts).toNat) := by
  unfold Page.etag etagOfStamps newest
  rw [h.stamps_eq]

end

section

variable {α ρ γ : Type} [Record α ρ γ] {r : Repository α} {s : Store}

/-- What a query is answered is the page of what is committed. -/
theorem Repository.page_of_query (hs : s.transaction = .none) {q : BoundQuery}
    {found : QueryResult α} (h : (r.query q s).result = .ok found) :
    ∃ page, fetchPage α r.strategy q.query s.committed = .ok page
      ∧ found.etag = Page.etag α page := by
  by_cases ho : r.state = .opened
  · by_cases hq : q.owner = r.identity
    · rw [(query_of_own ho hq s).1] at h
      split at h
      · cases h
      · have hread : (s.read (fetchPage α r.strategy q.query)).1
            = if s.others.wait then .error .locked
              else fetchPage α r.strategy q.query s.committed := by
          unfold Store.read
          rw [hs]
          dsimp only
          split <;> rfl
        rw [hread] at h
        split at h
        · cases h
        · next page hpage =>
          cases h
          split at hpage
          · cases hpage
          · exact ⟨page, hpage, rfl⟩
    · rw [query_of_foreign ho hq] at h
      cases h
  · unfold query whenOpen requireOpen at h
    rw [if_neg ho] at h
    cases h

end

/-! ## Queries in a run -/

/-- The errand to run a query. -/
def Errand.querying {k : Entity} (r : Repository k.Content) (q : BoundQuery)
    (peers : List Store) : Errand :=
  { kind := k, repository := r, peers, call := .query q }

namespace Repository

variable {k : Entity}

/-- Asked for the query the repository gives the result, if others hold the right locks. -/
def Answers (r : Repository k.Content) (q : BoundQuery) (s : Store)
    (found : QueryResult k.Content) : Prop :=
  ∃ peers, ((Errand.querying r q peers).reply s).result = .ok (.page found)

/-- A row under the key is on the page of the query. -/
def Shows (r : Repository k.Content) (q : Query) (s : Store) (key : String) : Prop :=
  ∃ page, fetchPage k.Content r.strategy q s.committed = .ok page
    ∧ key ∈ page.rows.map (Record.key k.Content)

variable {r : Repository k.Content} {q : BoundQuery} {s : Store} {found : QueryResult k.Content}

theorem Answers.exists_page (h : r.Answers q s found) (hs : s.transaction = .none) :
    ∃ page, fetchPage k.Content r.strategy q.query s.committed = .ok page
      ∧ found.etag = Page.etag k.Content page := by
  obtain ⟨peers, h⟩ := h
  obtain ⟨found', hresult, hfound⟩ := map_eq_ok h
  cases hfound
  exact page_of_query (s := { s with others := Store.locks peers }) hs hresult

end Repository

/-! ## Later writes -/

/-- An alert is written by an open repository. -/
def writeAlert (now : Int) (a : Alert) : Errand :=
  { kind := .alert, repository := openAlerts, peers := [], call := .upsert now a }

/-- The page on which there is one alert, as it is read back. -/
def pageWith (a : Alert) (etag : String) : QueryResult Alert :=
  { values := [(readBack a).getD a], total := 1, etag }

/-- The tuples on the page of a query for all records. -/
def Store.page (k : Entity) (q : Query) (s : Store) : List (Tuple k.Column) :=
  slice q.offset q.limit (s.tuples k.Content)

/-- In a run the etag of the page of a query follows what is written on that page. -/
structure FollowsPage (k : Entity) (s : Store) (xs : List Errand) (q : Query) : Prop where
  /-- The etag is the newest stamp of the tuples on the page, whether they denote records or not. -/
  tells (before : List Errand) {later : List Errand} {r : Repository k.Content} {bound : BoundQuery}
    {found : QueryResult k.Content} : xs = before ++ later → bound.query = q →
    r.Answers bound (s.run before) found →
    found.etag = String.ofList (Text.hexOfNat (newest ((s.run before).page k q)).toNat)
  /-- As a hexadecimal number it never decreases. -/
  grows (before between : List Errand) {later : List Errand} {r₁ r₂ : Repository k.Content}
    {bound₁ bound₂ : BoundQuery} {found₁ found₂ : QueryResult k.Content} :
    xs = before ++ (between ++ later) → bound₁.query = q → bound₂.query = q →
    r₁.Answers bound₁ (s.run before) found₁ →
    r₂.Answers bound₂ (s.run (before ++ between)) found₂ →
    ∃ m n, Text.readHex? found₁.etag.toList = some m ∧ Text.readHex? found₂.etag.toList = some n
      ∧ m ≤ n
  /-- It stays the same text if nothing is written that is on the page in the end. -/
  stays (before between : List Errand) {later : List Errand} {r₁ r₂ : Repository k.Content}
    {bound₁ bound₂ : BoundQuery} {found₁ found₂ : QueryResult k.Content} :
    xs = before ++ (between ++ later) → bound₁.query = q → bound₂.query = q →
    r₁.Answers bound₁ (s.run before) found₁ →
    r₂.Answers bound₂ (s.run (before ++ between)) found₂ →
    (∀ w ∈ (s.run before).writings between, w.kind = k →
      Cell.text w.key ∉ keys ((s.run (before ++ between)).page k q)) →
    found₂.etag = found₁.etag
  /-- Right after something on the page is written it is the time of that. -/
  fresh (before : List Errand) {later : List Errand} {x : Errand} {w : Writing}
    {r : Repository k.Content} {bound : BoundQuery} {found : QueryResult k.Content} :
    xs = before ++ x :: later → x.writing? (s.run before) = some w → w.kind = k →
    Cell.text w.key ∈ keys ((s.run (before ++ [x])).page k q) → bound.query = q →
    r.Answers bound (s.run (before ++ [x])) found →
    found.etag = String.ofList (Text.hexOfNat w.time.toNat)
  /-- If there are rows to be read at first, there is an etag at any time, as long as versions do
  not get out of range. -/
  answered {rows : List k.Row} {before : List Errand} {r : Repository k.Content}
    {bound : BoundQuery} {peers : List Store} : Keeps k.Content s.committed rows →
    Admits k.Content s.committed →
    (∀ earlier, earlier <+: xs → (s.run earlier).committed.HasRoom) → before <+: xs →
    r.state = .opened → bound.owner = r.identity → bound.query = q →
    (s.run before).poisoned = false → (Store.locks peers).wait = false →
    ∃ found, ((Errand.querying r bound peers).reply (s.run before)).result = .ok (.page found)

/-- A clock that does not go back can be parted at any time. -/
theorem exists_time_between {early late : List Int} (h : (early ++ late).Pairwise (· ≤ ·))
    (hearly : early ≠ []) :
    ∃ time, (∀ now ∈ early, now ≤ time) ∧ ∀ now ∈ late, time ≤ now := by
  rw [List.pairwise_append] at h
  refine ⟨early.getLast hearly, fun now hnow => ?_, h.2.2 _ (List.getLast_mem hearly)⟩
  rw [← List.dropLast_append_getLast hearly, List.pairwise_append] at h
  rw [← List.dropLast_append_getLast hearly] at hnow
  rcases List.mem_append.1 hnow with hnow | hnow
  · exact h.1.2.2 now hnow _ List.mem_cons_self
  · exact (List.mem_singleton.1 hnow).le

section

variable {k : Entity} {s : Store} {q : Query}

/-- What is answered for all records was read from the tuples on the page. -/
theorem Repository.Answers.exists_rows {r : Repository k.Content} {bound : BoundQuery}
    {found : QueryResult k.Content} (h : r.Answers bound s found) (hs : s.transaction = .none)
    (hbound : bound.query = q) (hq : q.IsUnfiltered) :
    ∃ page : Page k.Row, AreRead k.Content s.committed (s.page k q) page.rows
      ∧ found.etag = Page.etag k.Content page := by
  subst hbound
  obtain ⟨page, hpage, hetag⟩ := h.exists_page hs
  obtain ⟨selected, hselect, hread⟩ := fetchPage_eq_ok hpage
  rw [LawfulRecord.filter_eq r.strategy hq, select_nil] at hselect
  cases hselect
  exact ⟨page, hread, hetag⟩

theorem Store.page_subset (k : Entity) (q : Query) (s : Store) :
    s.page k q ⊆ s.tuples k.Content :=
  (slice_isInfix q.offset q.limit _).subset

/-- In a run without removals the page grows by what is written, and that is not earlier than the
stamps before. -/
theorem AtEase.grows_page (h : AtEase k s) {start : Int} (hby : StampsBy start (s.tuples k.Content))
    {before between later : List Errand}
    (hclock : (start :: readings (before ++ (between ++ later))).Pairwise (· ≤ ·))
    (hclear : ∀ x ∈ between, ¬ x.IsClear) (q : Query) :
    ∃ since, StampsBy since ((s.run before).page k q)
      ∧ Grows (Aged since fun key => ∃ w ∈ (s.run before).writings between,
          w.kind = k ∧ w.key = key)
        (IsUnder fun key => ∃ w ∈ (s.run before).writings between, w.kind = k ∧ w.key = key)
        ((s.run before).page k q) ((s.run (before ++ between)).page k q) := by
  rw [readings_append, readings_append, ← List.cons_append] at hclock
  obtain ⟨since, hearly, hlate⟩ := exists_time_between hclock (List.cons_ne_nil _ _)
  rw [List.forall_mem_cons] at hearly
  rw [List.forall_mem_append] at hlate
  refine ⟨since, ?_, ?_⟩
  · exact (stampsBy_run h hearly.2 (hby.mono hearly.1)).subset (Store.page_subset k q _)
  · rw [s.run_append]
    refine (grows_run (h.run before) hclear hlate.1 ?_).slice q.offset q.limit
    exact fun w hw hk => ⟨w, hw, hk, rfl⟩

/-- The time of a write is not behind the clock before it. -/
theorem le_time_of_writing {start : Int} {before later : List Errand} {x : Errand} {w : Writing}
    (hw : x.writing? s = some w)
    (hclock : (start :: readings (before ++ x :: later)).Pairwise (· ≤ ·)) :
    start ≤ w.time ∧ ∀ now ∈ readings (before ++ [x]), now ≤ w.time := by
  rw [readings_of_writing hw, ← List.cons_append, List.pairwise_append] at hclock
  have hearly := fun now hnow => hclock.2.2 now hnow w.time List.mem_cons_self
  refine ⟨hearly start List.mem_cons_self, ?_⟩
  rw [readings_of_writing hw, List.forall_mem_append, List.forall_mem_cons]
  exact ⟨fun now hnow => hearly now (List.mem_cons_of_mem start hnow), le_rfl, nofun⟩

/-- Right after a write on the page the newest stamp of the page is its time. -/
theorem AtEase.newest_page_of_writing (h : AtEase k s) {start : Int} (hstart : 0 ≤ start)
    (hby : StampsBy start (s.tuples k.Content)) {before later : List Errand} {x : Errand}
    {w : Writing} (hw : x.writing? (s.run before) = some w) (hk : w.kind = k)
    (hclock : (start :: readings (before ++ x :: later)).Pairwise (· ≤ ·)) {t : Tuple k.Column}
    (ht : t ∈ (s.run (before ++ [x])).page k q) (hkey : keyOf t = .text w.key) {m : Int}
    (hm : stampOf? t = some m) : newest ((s.run (before ++ [x])).page k q) = w.time := by
  obtain ⟨hearly, hclock'⟩ := le_time_of_writing hw hclock
  have hby' : StampsBy w.time ((s.run (before ++ [x])).page k q) :=
    (stampsBy_run h hclock' (hby.mono hearly)).subset (Store.page_subset k q _)
  have hsince : StampedSince w.time w.key ((s.run (before ++ [x])).page k q) := by
    rw [s.run_append]
    exact (stampedSince_of_writing (h.run before) hw hk).subset (Store.page_subset k q _)
  exact Table.newest_eq (hstart.trans hearly) hby' hsince ht hkey hm

/-- An open repository answers its query for all records if each of the rows can be read. -/
theorem Repository.exists_answer (hs : s.transaction = .none) {rows : List k.Row}
    (hkeeps : Keeps k.Content s.committed rows) {r : Repository k.Content} {bound : BoundQuery}
    {peers : List Store} (ho : r.state = .opened) (howner : bound.owner = r.identity)
    (hq : bound.query.IsUnfiltered) (hsound : s.poisoned = false)
    (hwait : (Store.locks peers).wait = false) :
    ∃ found, ((Errand.querying r bound peers).reply s).result = .ok (.page found) := by
  let met : Store := { s with others := Store.locks peers }
  have hview : met.view = s.committed := Store.view_of_idle (s := met) hs
  have hresult := (query_of_own ho howner met).1
  rw [if_neg (by rw [show met.poisoned = false from hsound]; decide),
    Store.read_result (s := met) hwait, hview, fetchPage_eq hkeeps r.strategy hq] at hresult
  exact ⟨_, congrArg (Except.map Answer.page) hresult⟩

/-- In any run without removals, with a clock that is not behind the stamps and does not go back,
the etag of a page of all records follows what is written on it. -/
theorem etag_follows_page (h : AtEase k s) {start : Int} (hstart : 0 ≤ start)
    (hby : StampsBy start (s.tuples k.Content)) {xs : List Errand}
    (hclock : (start :: readings xs).Pairwise (· ≤ ·)) (hclear : ∀ x ∈ xs, ¬ x.IsClear)
    (hq : q.IsUnfiltered) : FollowsPage k s xs q := by
  have htells : ∀ {before : List Errand} {r : Repository k.Content} {bound : BoundQuery}
      {found : QueryResult k.Content}, bound.query = q → r.Answers bound (s.run before) found →
      found.etag = String.ofList (Text.hexOfNat (newest ((s.run before).page k q)).toNat) := by
    intro before r bound found hbound hfound
    obtain ⟨page, hread, hetag⟩ := hfound.exists_rows (h.run before).transaction hbound hq
    exact hetag.trans (etag_eq hread)
  have hkept : ∀ {before between later : List Errand}, xs = before ++ (between ++ later) →
      ∀ x ∈ between, ¬ x.IsClear := by
    rintro before between later rfl x hx
    exact hclear x (List.mem_append_right _ (List.mem_append_left _ hx))
  refine {
    tells := fun _ _ _ _ _ _ => htells
    grows := ?_
    stays := ?_
    fresh := ?_
    answered := ?_ }
  · intro before between later r₁ r₂ bound₁ bound₂ found₁ found₂ hxs hbound₁ hbound₂ hfound₁ hfound₂
    obtain ⟨since, hsince, hpage⟩ := h.grows_page hby (hxs ▸ hclock) (hkept hxs) q
    rw [htells hbound₁ hfound₁, htells hbound₂ hfound₂]
    simp only [String.toList_ofList, Text.readHex?_hexOfNat]
    exact ⟨_, _, rfl, rfl, Int.toNat_le_toNat (Table.newest_le_newest hpage hsince)⟩
  · intro before between later r₁ r₂ bound₁ bound₂ found₁ found₂ hxs hbound₁ hbound₂ hfound₁ hfound₂
      hother
    obtain ⟨since, _, hpage⟩ := h.grows_page hby (hxs ▸ hclock) (hkept hxs) q
    have hsame := Table.eq_of_grows hpage (by
      rintro b hb ⟨_, ⟨w, hw, hk, rfl⟩, hkey⟩
      exact hother w hw hk (hkey ▸ List.mem_map_of_mem hb))
    rw [htells hbound₁ hfound₁, htells hbound₂ hfound₂, hsame]
  · rintro before later x w r bound found rfl hw hk hmem hbound hfound
    obtain ⟨page, hread, _⟩ :=
      hfound.exists_rows (h.run (before ++ [x])).transaction hbound hq
    obtain ⟨t, ht, hkey⟩ := List.mem_map.1 hmem
    obtain ⟨m, hm⟩ := hread.exists_stamp ht
    rw [htells hbound hfound, h.newest_page_of_writing hstart hby hw hk hclock ht hkey hm]
  · intro rows before r bound peers hkeeps hadmits hroom hbefore ho howner hbound hsound hwait
    obtain ⟨rows', hkeeps', _⟩ := keeps_run h.transaction hkeeps hadmits
      fun earlier hearlier => hroom earlier (hearlier.trans hbefore)
    exact Repository.exists_answer (h.run before).transaction hkeeps' ho howner (hbound ▸ hq)
      hsound hwait

end

/-- A store with a row that denotes no alert, as its period is none. -/
def undatedStore : Store :=
  let row : AlertRow :=
    { id := toString (Uuid.ofRandom 1), name := "load", cluster := "main", service := "web"
      context := "HOST", metric := "load", statistic := "avg", period := "soon"
      operator := "GREATER_THAN", quantity := "" }
  { committed.alerts.tuples := [row.tuple (.integer 1) (.integer 3) (.integer 3)] }

/-- An expression is written at 6 by an open repository. -/
def writeExpression : Errand where
  kind := .expression
  repository := { identity := 1, strategy := .generic, state := .opened }
  peers := []
  call := .upsert 6
    { id := Uuid.ofRandom 2, cluster := "main", service := "web", metric := "load", script := "" }

/-- The row that denotes no alert makes the etag 3. An alert that is written at 5 makes it 5, and
the expression leaves it so. -/
theorem etag_follows_alerts :
    ∃ found₁ found₂ found₃ : QueryResult Alert,
      Repository.Answers (k := .alert) openAlerts (openAlerts.bind {}) undatedStore found₁
      ∧ Repository.Answers (k := .alert) openAlerts (openAlerts.bind {})
        (undatedStore.run [writeAlert 5 AlertRow.watchedAlert]) found₂
      ∧ Repository.Answers (k := .alert) openAlerts (openAlerts.bind {})
        (undatedStore.run [writeAlert 5 AlertRow.watchedAlert, writeExpression]) found₃
      ∧ found₁.values = [] ∧ found₁.etag = "3" ∧ found₂.etag = "5" ∧ found₃.etag = found₂.etag := by
  have hease : AtEase .alert undatedStore :=
    ⟨rfl, List.nodup_singleton _, by
      rintro t (_ | ⟨_, ⟨⟩⟩)
      exact Cell.isStamp_integer 3⟩
  have hby : StampsBy 3 (undatedStore.tuples Entity.alert.Content) := by
    rintro t (_ | ⟨_, ⟨⟩⟩) n (hn | hn)
    all_goals exact (Cell.integer.inj hn).ge
  have hfollows : FollowsPage .alert undatedStore
      [writeAlert 5 AlertRow.watchedAlert, writeExpression] {} :=
    etag_follows_page hease (by decide) hby (by decide) (by
      rintro x (_ | ⟨_, _ | ⟨_, ⟨⟩⟩⟩)
      all_goals exact nofun) ⟨rfl, rfl, rfl, rfl⟩
  have h₁ : Repository.Answers (k := .alert) openAlerts (openAlerts.bind {}) undatedStore
      { values := [], total := 1, etag := "3" } :=
    ⟨[], by with_unfolding_all rfl⟩
  have h₂ : Repository.Answers (k := .alert) openAlerts (openAlerts.bind {})
      (undatedStore.run [writeAlert 5 AlertRow.watchedAlert])
      { pageWith AlertRow.watchedAlert "5" with total := 2 } :=
    ⟨[], by with_unfolding_all rfl⟩
  have h₃ : Repository.Answers (k := .alert) openAlerts (openAlerts.bind {})
      (undatedStore.run [writeAlert 5 AlertRow.watchedAlert, writeExpression])
      { pageWith AlertRow.watchedAlert "5" with total := 2 } :=
    ⟨[], by with_unfolding_all rfl⟩
  have hwriting : (writeAlert 5 AlertRow.watchedAlert).writing? undatedStore
      = some { kind := .alert, key := toString AlertRow.watchedAlert.id, time := 5 } := by
    with_unfolding_all rfl
  have hkeys : keys ((undatedStore.run [writeAlert 5 AlertRow.watchedAlert]).page .alert {})
      = [.text (toString (Uuid.ofRandom 1)), .text (toString AlertRow.watchedAlert.id)] := by
    with_unfolding_all rfl
  have hfresh := hfollows.fresh [] rfl hwriting rfl
    (hkeys ▸ List.mem_cons_of_mem _ List.mem_cons_self) rfl h₂
  have hother : ∀ w ∈ (undatedStore.run [writeAlert 5 AlertRow.watchedAlert]).writings
      [writeExpression], w.kind ≠ .alert := by
    decide +kernel
  have hstays := hfollows.stays [writeAlert 5 AlertRow.watchedAlert] [writeExpression] rfl rfl rfl
    h₂ h₃ fun w hw hk => absurd hk (hother w hw)
  exact ⟨_, _, _, h₁, h₂, h₃, rfl, rfl, hfresh.trans (by decide +kernel), hstays⟩

end AlertRegistry
