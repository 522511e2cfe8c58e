import AlertRegistry.Proofs.Repository.Foreseen
import AlertRegistry.Proofs.Repository.Interleaving
import AlertRegistry.Proofs.Repository.Paging

/-!
# Walking the pages while others write

A client walks through the pages of all records: it fetches one after the other, from offset to
offset, until the next offset is not below the number of rows that it was told last. Between any two
fetches others may write (`Repository.walk`).

An upsert changes a row in its place or adds one behind all others, so that the keys of the rows
before a run are the first ones after it (`keeps_run_of_spares`). Hence a full page has the keys
that it would have if it was fetched in the end, and all pages of a walk together have the first
keys of the last table, each once (`walk_loses_nothing`).
-/

namespace AlertRegistry

open StoredRecord (Keeps)
open Table (keys)

/-! ## Rows in a run without removals -/

section

variable {k : Entity} {s : Store} {rows : List k.Row}

/-- Rejections do not matter for what is kept. -/
theorem Entity.keeps_tolerant_iff {db : Database} :
    Keeps k.Content db.tolerant rows ↔ Keeps k.Content db rows := by
  cases k with
  | alert =>
    exact ⟨fun h => ⟨h.tuples, h.nodup, h.written, h.stamps, h.sides, h.sideKeys, h.sideIds⟩,
      fun h => ⟨h.tuples, h.nodup, h.written, h.stamps, h.sides, h.sideKeys, h.sideIds⟩⟩
  | expression =>
    exact ⟨fun h => ⟨h.tuples, h.nodup, h.written, h.stamps⟩,
      fun h => ⟨h.tuples, h.nodup, h.written, h.stamps⟩⟩

/-- An upsert that succeeds puts a row under its key, whatever else the tables reject. -/
theorem Repository.keeps_of_upsert (hkeeps : Keeps k.Content s.committed rows)
    (hmax : ∀ u ∈ rows, Record.version k.Content u < Text.maxInt64) {r : Repository k.Content}
    {now : Int} {a : k.Content} {o : Outcome} (h : (r.upsert now a s).result = .ok o) :
    ∃ row, Keeps k.Content (r.upsert now a s).store.committed
      (Keyed.put (Record.key k.Content) row rows) := by
  obtain ⟨_, _, row, s₁, version, s₂, _, hb, hr, hsave, _⟩ := upsert_ok_cases h
  obtain rfl := Store.begin_ok_eq hb
  -- the version that is read is the one of the row under the key
  have hread : (storedVersion k.Content (Record.key k.Content row) s.committed,
      { s with transaction := .writing s.committed false }) = (.ok version, s₂) := hr
  obtain ⟨hversion, rfl⟩ := Prod.mk.inj hread
  rw [storedVersion_eq hkeeps] at hversion
  cases hversion
  obtain ⟨s₃, hsaved, hcommit⟩ := saveAndCommit_ok_cases hsave
  -- without the rejections the row is saved in the same way
  let alone : Store := { transaction := .writing s.committed.tolerant false }
  have halone : alone.Alone := ⟨rfl, fun _ => Transaction.noConfusion, rfl⟩
  obtain ⟨db', hsaved', _, hkeeps'⟩ := save_eq (s := alone) now row halone
    (k.keeps_tolerant_iff.2 hkeeps) (k.admits_tolerant _) hmax
  have halike := save_alike (s := { s with transaction := .writing s.committed false })
    k.agreesOn_tolerant (t := alone) ⟨s.committed, false, rfl, rfl⟩ now
    (Record.withVersion k.Content row
      (((rowAt k.Content (Record.key k.Content row) rows).map (Record.version k.Content)).getD 0))
  rw [hsaved, hsaved'] at halike
  cases halike with
  | same hstep =>
    obtain ⟨work, waits, hwork, hwork'⟩ := hstep
    have hwork' : Transaction.writing db' false = .writing work.tolerant waits := hwork'
    cases hwork'
    have hview : s₃.view = work := by
      unfold Store.view
      rw [hwork]
    refine ⟨writtenOver k.Content now row (rowAt k.Content (Record.key k.Content row) rows), ?_⟩
    rw [Store.committed_of_commitOrAbort hcommit, hview]
    exact k.keeps_tolerant_iff.1 hkeeps'

/-- An errand that does not remove the rows leaves their keys in front. -/
theorem Errand.keeps_after_of_harmless (hs : s.transaction = .none)
    (hkeeps : Keeps k.Content s.committed rows) (hroom : s.committed.HasRoom) {x : Errand}
    (hx : x.kind = k → ¬ x.IsClear) :
    ∃ rows', Keeps k.Content (s.after x).committed rows'
      ∧ rows.map (Record.key k.Content) <+: rows'.map (Record.key k.Content) := by
  by_cases hk : x.kind = k
  · obtain ⟨kind, r, peers, c⟩ := x
    obtain rfl : kind = k := hk
    let met : Store := { s with others := Store.locks peers }
    have hsame : (c.reply r met).store.committed = s.committed →
        ∃ rows', Keeps kind.Content (c.reply r met).store.committed rows'
          ∧ rows.map (Record.key kind.Content) <+: rows'.map (Record.key kind.Content) := by
      intro h
      rw [h]
      exact ⟨rows, hkeeps, List.prefix_rfl⟩
    show ∃ rows', Keeps kind.Content (c.reply r met).store.committed rows' ∧ _
    rcases call_cases (s := met) hs r c with ⟨now, a, rfl⟩ | rfl | ⟨_, hstore⟩
    · cases hresult : (r.upsert now a met).result with
      | error e => exact hsame (Repository.upsert_error_sameTables r now a met hresult).committed
      | ok o =>
        obtain ⟨row, hput⟩ := Repository.keeps_of_upsert (s := met) hkeeps
          (hroom.version_lt hkeeps) hresult
        exact ⟨_, hput, Keyed.map_key_prefix_put _ row rows⟩
    · exact absurd rfl (hx rfl)
    · have hcommitted : (c.reply r met).store.committed = met.committed := by rw [hstore]
      exact hsame hcommitted
  · exact ⟨rows, (samePart_after hs hk).keeps hkeeps, List.prefix_rfl⟩

/-- A run spares the rows of a kind: it does not remove them, and there is room for their versions
all along. -/
structure Store.Spares (k : Entity) (s : Store) (xs : List Errand) : Prop where
  /-- Versions can grow. -/
  room : ∀ before, before <+: xs → (s.run before).committed.HasRoom
  /-- No errand is to remove all rows of the kind. -/
  keeping : ∀ x ∈ xs, x.kind = k → ¬ x.IsClear

namespace Store.Spares

variable {xs ys : List Errand}

theorem left (h : s.Spares k (xs ++ ys)) : s.Spares k xs where
  room before hbefore := h.room before (hbefore.trans (List.prefix_append xs ys))
  keeping x hx := h.keeping x (List.mem_append_left ys hx)

theorem right (h : s.Spares k (xs ++ ys)) : (s.run xs).Spares k ys where
  room before hbefore := by
    rw [← Store.run_append]
    exact h.room (xs ++ before) ((List.prefix_append_right_inj xs).2 hbefore)
  keeping x hx := h.keeping x (List.mem_append_right xs hx)

end Store.Spares

/-- A run that spares the rows leaves their keys in front. -/
theorem keeps_run_of_spares (hs : s.transaction = .none)
    (hkeeps : Keeps k.Content s.committed rows) {xs : List Errand} (hxs : s.Spares k xs) :
    ∃ rows', Keeps k.Content (s.run xs).committed rows'
      ∧ rows.map (Record.key k.Content) <+: rows'.map (Record.key k.Content) := by
  induction xs generalizing s rows with
  | nil => exact ⟨rows, hkeeps, List.prefix_rfl⟩
  | cons x xs ih =>
    have hxs : s.Spares k ([x] ++ xs) := hxs
    obtain ⟨rows₁, hkeeps₁, hkeys₁⟩ := Errand.keeps_after_of_harmless hs hkeeps
      (hxs.room [] List.nil_prefix) (hxs.keeping x List.mem_cons_self)
    obtain ⟨rows₂, hkeeps₂, hkeys₂⟩ := ih (Errand.transaction_after hs x) hkeeps₁ hxs.right
    exact ⟨rows₂, hkeeps₂, hkeys₁.trans hkeys₂⟩

theorem transaction_run (hs : s.transaction = .none) (xs : List Errand) :
    (s.run xs).transaction = .none := by
  induction xs generalizing s with
  | nil => exact hs
  | cons x xs ih => exact ih (Errand.transaction_after hs x)

end

/-! ## Walks -/

/-- What a client has of a fetch. -/
structure Fetch (k : Entity) where
  /-- The page that the repository reads. -/
  page : Page k.Row
  /-- Its answer. -/
  answer : QueryResult k.Content

section

variable {k : Entity}

namespace Repository

/-- The page of all records at an offset is fetched by a query on its own, while nobody writes. -/
def fetch (r : Repository k.Content) (limit : UInt32) (o : Nat) (db : Database) :
    Except RepositoryError (Fetch k) := do
  let q : Query := { limit, offset := some (UInt32.ofNat o) }
  let page ← (fetchPage k.Content r.strategy q db).mapError fun e => .access (.store e)
  let answer ← (r.query (r.bind q) db.atRest).result
  return { page, answer }

/-- The fetches of a client from an offset on, with errands of others between any two of them. The
last one is the first that counts no row behind its page, unless there is no time for another. -/
def walk (r : Repository k.Content) (limit : UInt32) (o : Nat) (s : Store) :
    List (List Errand) → Except RepositoryError (List (Fetch k))
  | [] => do
    return [← r.fetch limit o s.committed]
  | xs :: between => do
    let f ← r.fetch limit o s.committed
    if f.answer.total ≤ o + rowsPerPage limit then return [f]
    return f :: (← r.walk limit (o + rowsPerPage limit) (s.run xs) between)

end Repository

/-- The keys of the rows on the pages, one page after the other. -/
def keysFetched (fetched : List (Fetch k)) : List Cell :=
  (fetched.flatMap fun f => f.page.rows).map fun row => .text (Record.key k.Content row)

/-- The offset after the last fetch is not below the number of rows that was told. -/
def GotThrough (n o : Nat) (fetched : List (Fetch k)) : Prop :=
  ∃ f, fetched.getLast? = some f ∧ f.answer.total ≤ o + n * fetched.length

/-- What a client has who walks from an offset on, where `first` are the keys when the walk begins
and `last` those in the end. -/
structure Walked (n o : Nat) (first last : List Cell) (times : Nat) (fetched : List (Fetch k)) :
    Prop where
  /-- The answers are the records on the pages. -/
  answered : ∀ f ∈ fetched, f.answer = (Repository.decodePage f.page).1
  /-- The pages have keys of the last table, in their order. -/
  ordered : keysFetched fetched <+: last.drop o
  /-- Once the client got through they have all keys of the first table. -/
  present : GotThrough n o fetched → first.drop o <+: keysFetched fetched
  /-- Time for as many fetches as there are pages in the end is enough to get through. -/
  through : last.length ≤ o + n * (times + 1) → GotThrough n o fetched

/-! ## One fetch -/

section

variable {f : Fetch k} {fetched : List (Fetch k)} {n o times : Nat} {first second last : List Cell}

theorem keysFetched_cons (f : Fetch k) (fetched : List (Fetch k)) :
    keysFetched (f :: fetched) = keysFetched [f] ++ keysFetched fetched := by
  unfold keysFetched
  rw [List.flatMap_cons, List.flatMap_singleton, List.map_append]

theorem gotThrough_cons (f : Fetch k) (h : fetched ≠ []) :
    GotThrough n o (f :: fetched) ↔ GotThrough n (o + n) fetched := by
  unfold GotThrough
  obtain ⟨g, fetched, rfl⟩ := List.exists_cons_of_ne_nil h
  rw [List.getLast?_cons_cons, List.length_cons, Nat.mul_succ, Nat.add_right_comm, Nat.add_assoc]

/-- A page parts the keys from its offset on. -/
theorem take_drop_append (l : List Cell) (o n : Nat) :
    (l.drop o).take n ++ l.drop (o + n) = l.drop o := by
  rw [← List.drop_drop, List.take_append_drop]

/-- The keys that are first stay where they are. -/
theorem take_drop_of_prefix (h : first <+: last) (hle : o + n ≤ first.length) :
    (first.drop o).take n = (last.drop o).take n := by
  obtain ⟨added, rfl⟩ := h
  have hdrop : n ≤ (first.drop o).length := by
    rw [List.length_drop]
    omega
  rw [List.drop_append_of_le_length (by omega), List.take_append_of_le_length hdrop]

/-- A client has the first keys from a fetch, and if none follow there are no more of them. -/
theorem Walked.single (hanswer : f.answer = (Repository.decodePage f.page).1)
    (hkeys : keysFetched [f] = (first.drop o).take n) (htotal : f.answer.total = first.length)
    (hlast : first <+: last) (hend : times = 0 ∧ first = last ∨ f.answer.total ≤ o + n) :
    Walked n o first last times [f] where
  answered := List.forall_mem_singleton.2 hanswer
  ordered := by
    rw [hkeys]
    exact (List.take_prefix _ _).trans (hlast.drop o)
  present hthrough := by
    -- who is through has no key left behind the only page
    obtain ⟨g, hg, hle⟩ := hthrough
    obtain rfl : f = g := Option.some.inj hg
    rw [htotal, List.length_singleton, Nat.mul_one] at hle
    have hlength : (first.drop o).length ≤ n := by
      rw [List.length_drop]
      omega
    rw [hkeys, List.take_of_length_le hlength]
  through hlength := by
    refine ⟨f, rfl, ?_⟩
    rw [List.length_singleton, Nat.mul_one]
    rcases hend with ⟨rfl, rfl⟩ | hend
    · omega
    · exact hend

/-- A client has the first keys from a fetch, and the next ones from those that follow. -/
theorem Walked.cons (hanswer : f.answer = (Repository.decodePage f.page).1)
    (hkeys : keysFetched [f] = (first.drop o).take n) (hnext : o + n < first.length)
    (hsecond : first <+: second) (hlast : second <+: last) (hne : fetched ≠ [])
    (h : Walked n (o + n) second last times fetched) :
    Walked n o first last (times + 1) (f :: fetched) where
  answered := List.forall_mem_cons.2 ⟨hanswer, h.answered⟩
  ordered := by
    -- a page that another one follows is full, so that it has the keys of the last table too
    rw [keysFetched_cons, hkeys, take_drop_of_prefix (hsecond.trans hlast) hnext.le]
    nth_rewrite 2 [← take_drop_append last o n]
    exact (List.prefix_append_right_inj _).2 h.ordered
  present hthrough := by
    have hrest : first.drop (o + n) <+: keysFetched fetched :=
      (hsecond.drop _).trans (h.present ((gotThrough_cons f hne).1 hthrough))
    rw [keysFetched_cons, hkeys]
    nth_rewrite 1 [← take_drop_append first o n]
    exact (List.prefix_append_right_inj _).2 hrest
  through hlength := by
    rw [gotThrough_cons f hne]
    refine h.through (hlength.trans_eq ?_)
    ring

end

/-! ## All fetches -/

/-- The keys of the rows of a kind, in the order of their insertion. -/
def Store.keysOf (k : Entity) (s : Store) : List Cell :=
  keys (s.tuples k.Content)

section

variable {r : Repository k.Content} {limit : UInt32} {o : Nat} {s : Store} {rows : List k.Row}

theorem Store.keysOf_eq (hkeeps : Keeps k.Content s.committed rows) :
    s.keysOf k = rows.map fun row => .text (Record.key k.Content row) := by
  unfold Store.keysOf Store.tuples
  rw [LawfulRecord.tuples hkeeps, Table.keys_stored LawfulRecord.keyOf_stored, List.map_map]
  rfl

theorem Store.nodup_keysOf (hkeeps : Keeps k.Content s.committed rows) : (s.keysOf k).Nodup := by
  unfold Store.keysOf Store.tuples
  rw [LawfulRecord.tuples hkeeps]
  exact Table.nodup_keys_stored LawfulRecord.keyOf_stored (LawfulRecord.nodup hkeeps)

/-- A fetch gives the rows at the offset and counts all of them. -/
theorem fetch_eq (hkeeps : Keeps k.Content s.committed rows) (hr : r.state = .opened)
    (ho : o < 2 ^ 32) (hdvd : rowsPerPage limit ∣ o) :
    ∃ f, r.fetch limit o s.committed = .ok f ∧ f.answer = (Repository.decodePage f.page).1
      ∧ keysFetched [f] = ((s.keysOf k).drop o).take (rowsPerPage limit)
      ∧ f.answer.total = (s.keysOf k).length := by
  let q : Query := { limit, offset := some (UInt32.ofNat o) }
  let page : Page k.Row :=
    { rows := slice (some (UInt32.ofNat o)) limit rows, total := rows.length }
  have hpage : fetchPage k.Content r.strategy q s.committed = .ok page :=
    fetchPage_eq hkeeps r.strategy ⟨rfl, rfl, rfl, rfl⟩
  have hread : (s.committed.atRest.read (fetchPage k.Content r.strategy q)).1 = .ok page := hpage
  have hquery := Repository.query_result hr (s := s.committed.atRest) rfl q
  rw [hread] at hquery
  refine ⟨⟨page, (Repository.decodePage page).1⟩, ?_, rfl, ?_, ?_⟩
  · unfold Repository.fetch
    dsimp only
    rw [hpage, hquery]
    rfl
  · rw [Store.keysOf_eq hkeeps, ← List.map_drop, ← List.map_take, ← slice_of_dvd ho hdvd]
    exact congrArg (List.map _) (List.flatMap_singleton ..)
  · rw [Store.keysOf_eq hkeeps, List.length_map]
    rfl

/-- The keys are the first ones after a run that spares the rows. -/
theorem keysOf_prefix_run (hs : s.transaction = .none) (hkeeps : Keeps k.Content s.committed rows)
    {xs : List Errand} (hxs : s.Spares k xs) : s.keysOf k <+: (s.run xs).keysOf k := by
  obtain ⟨rows', hkeeps', hkeys⟩ := keeps_run_of_spares hs hkeeps hxs
  have htexts := hkeys.map Cell.text
  rw [List.map_map, List.map_map] at htexts
  rw [Store.keysOf_eq hkeeps, Store.keysOf_eq hkeeps']
  exact htexts

/-- A walk from an offset on succeeds. -/
theorem exists_walk {between : List (List Errand)} (hs : s.transaction = .none)
    (hkeeps : Keeps k.Content s.committed rows) (hr : r.state = .opened)
    (hbetween : s.Spares k between.flatten)
    (hlength : ((s.run between.flatten).keysOf k).length ≤ 2 ^ 32)
    (hdvd : rowsPerPage limit ∣ o) (ho : o = 0 ∨ o < (s.keysOf k).length) :
    ∃ fetched, r.walk limit o s between = .ok fetched ∧ fetched ≠ []
      ∧ Walked (rowsPerPage limit) o (s.keysOf k) ((s.run between.flatten).keysOf k)
        between.length fetched := by
  induction between generalizing s rows o with
  | nil =>
    have hle : (s.keysOf k).length ≤ 2 ^ 32 := hlength
    obtain ⟨f, hfetch, hanswer, hkeys, htotal⟩ := fetch_eq hkeeps hr (by omega) hdvd
    refine ⟨[f], ?_, List.cons_ne_nil f [],
      .single hanswer hkeys htotal List.prefix_rfl (.inl ⟨rfl, rfl⟩)⟩
    unfold Repository.walk
    rw [hfetch]
    rfl
  | cons xs between ih =>
    -- no key is lost until the end, where their number is in range
    have hlast := keysOf_prefix_run hs hkeeps hbetween
    have hle := hlast.length_le
    obtain ⟨f, hfetch, hanswer, hkeys, htotal⟩ := fetch_eq hkeeps hr (by omega) hdvd
    unfold Repository.walk
    rw [hfetch]
    by_cases hend : f.answer.total ≤ o + rowsPerPage limit
    case pos =>
      refine ⟨[f], ?_, List.cons_ne_nil f [], .single hanswer hkeys htotal hlast (.inr hend)⟩
      simp only [bind, Except.bind, if_pos hend]
      rfl
    case neg =>
      rw [List.flatten_cons] at hbetween hlength hlast ⊢
      rw [Store.run_append] at hlength hlast ⊢
      obtain ⟨rows₁, hkeeps₁, _⟩ := keeps_run_of_spares hs hkeeps hbetween.left
      have hsecond := keysOf_prefix_run hs hkeeps hbetween.left
      have hnext : o + rowsPerPage limit < (s.keysOf k).length := by
        rw [← htotal]
        exact Nat.lt_of_not_le hend
      obtain ⟨fetched, hwalk, hne, hwalked⟩ := ih (transaction_run hs xs) hkeeps₁
        hbetween.right hlength (Nat.dvd_add_self_right.2 hdvd)
        (.inr (hnext.trans_le hsecond.length_le))
      refine ⟨f :: fetched, ?_, List.cons_ne_nil f fetched,
        hwalked.cons hanswer hkeys hnext hsecond ?_ hne⟩
      · simp only [bind, Except.bind, if_neg hend, hwalk]
        rfl
      · exact keysOf_prefix_run (transaction_run hs xs) hkeeps₁ hbetween.right

end

/-- Nothing is lost in a walk through all pages. -/
structure LosesNothing (n : Nat) (first last : List Cell) (times : Nat) (fetched : List (Fetch k)) :
    Prop extends Walked n 0 first last times fetched where
  /-- No row is on two pages, or twice on one. -/
  once : (keysFetched fetched).Nodup

/-- Whatever others write while a client walks through the pages, each row that was there when the
walk began is fetched just once, in the order of insertion, and no other row is fetched twice. -/
theorem walk_loses_nothing (k : Entity) (s : Store) (hs : s.transaction = .none)
    (h : s.committed.MeetsSchema) (r : Repository k.Content) (hr : r.state = .opened)
    (limit : UInt32) (between : List (List Errand)) (hbetween : s.Spares k between.flatten)
    (hlength : ((s.run between.flatten).keysOf k).length ≤ 2 ^ 32) :
    ∃ fetched, r.walk limit 0 s between = .ok fetched
      ∧ LosesNothing (rowsPerPage limit) (s.keysOf k) ((s.run between.flatten).keysOf k)
        between.length fetched := by
  obtain ⟨rows, hkeeps⟩ := h.exists_keeps k
  obtain ⟨fetched, hwalk, _, hwalked⟩ := exists_walk hs hkeeps hr hbetween hlength
    (Nat.dvd_zero _) (.inl rfl)
  obtain ⟨rows', hkeeps', _⟩ := keeps_run_of_spares hs hkeeps hbetween
  exact ⟨fetched, hwalk, hwalked,
    (Store.nodup_keysOf hkeeps').sublist (hwalked.ordered.sublist.trans (List.drop_sublist 0 _))⟩

/-- The row of an expression with a number. -/
def numberedRow (n : Nat) : ExpressionRow where
  id := toString (Uuid.ofRandom n)
  version := 1
  cluster := "west"
  service := "dns"
  metric := "latency"
  script := ""

/-- Three expressions. -/
def numberedStore : Store where
  committed.expressions.tuples := ([0, 1, 2].map numberedRow).map ExpressionRow.stored

/-- Another expression is written, and the first one is written over. -/
def numberedErrands : List Errand :=
  [{ kind := .expression, repository := openExpressions, peers := []
     call := .upsert 7 { splitExpression with id := Uuid.ofRandom 3 } },
    { kind := .expression, repository := openExpressions, peers := []
      call := .upsert 9 { splitExpression with id := Uuid.ofRandom 0 } }]

theorem numberedStore_meetsSchema : numberedStore.committed.MeetsSchema where
  alerts := ⟨nofun, nofun, .nil⟩
  sides := ⟨nofun, nofun, .nil⟩
  expressions := {
    typed := List.forall_mem_map.2 fun r _ column => by cases column <;> exact .inl ⟨_, rfl⟩
    checked := by decide +kernel
    nodup := by decide +kernel }
  referenced := List.nil_subset _

theorem numberedStore_spares : numberedStore.Spares .expression numberedErrands where
  room := by
    have hversions : ∀ before ∈ numberedErrands.inits,
        (numberedStore.run before).committed.alerts.tuples = []
        ∧ ∀ t ∈ (numberedStore.run before).committed.expressions.tuples,
          t .version = .integer 1 ∨ t .version = .integer 2 := by
      decide +kernel
    intro before hbefore entity key n hn
    obtain ⟨hnone, hsome⟩ := hversions before ((List.mem_inits _ _).2 hbefore)
    cases entity with
    | alert =>
      obtain ⟨t, ht, _⟩ := Option.map_eq_some_iff.1 hn
      have hmem := List.mem_of_find?_eq_some ht
      rw [hnone] at hmem
      cases hmem
    | expression =>
      obtain ⟨t, ht, hversion⟩ := Option.map_eq_some_iff.1 hn
      have hversion : t .version = .integer n := hversion
      rcases hsome t (List.mem_of_find?_eq_some ht) with h | h
      all_goals
        rw [h] at hversion
        cases hversion
        decide
  keeping := by
    simp [numberedErrands, Errand.IsClear]

/-- The keys of the expressions with these numbers. -/
def numberedKeys (ns : List Nat) : List Cell :=
  ns.map fun n => .text (numberedRow n).id

/-- Two expressions on a page: the new one is on the second page, behind those that were there. -/
theorem late_expression_is_fetched : numberedStore.committed.MeetsSchema
    ∧ numberedStore.Spares .expression numberedErrands
    ∧ numberedStore.keysOf .expression = numberedKeys [0, 1, 2]
    ∧ ∃ fetched, openExpressions.walk (k := .expression) 2 0 numberedStore [numberedErrands]
        = .ok fetched
      ∧ GotThrough 2 0 fetched ∧ keysFetched fetched = numberedKeys [0, 1, 2, 3]
      ∧ LosesNothing 2 (numberedKeys [0, 1, 2]) (numberedKeys [0, 1, 2, 3]) 1 fetched := by
  have hlast : (numberedStore.run numberedErrands).keysOf .expression
      = numberedKeys [0, 1, 2, 3] := by
    with_unfolding_all rfl
  obtain ⟨fetched, hwalk, hfetched⟩ := walk_loses_nothing .expression numberedStore rfl
    numberedStore_meetsSchema openExpressions rfl 2 [numberedErrands] numberedStore_spares
    (show ((numberedStore.run numberedErrands).keysOf .expression).length ≤ 2 ^ 32 by
      rw [hlast]
      decide)
  have hfetched : LosesNothing 2 (numberedKeys [0, 1, 2])
      ((numberedStore.run numberedErrands).keysOf .expression) 1 fetched := hfetched
  rw [hlast] at hfetched
  have hkeys : (openExpressions.walk (k := .expression) 2 0 numberedStore
      [numberedErrands]).map keysFetched = .ok (numberedKeys [0, 1, 2, 3]) := by
    with_unfolding_all rfl
  rw [hwalk] at hkeys
  exact ⟨numberedStore_meetsSchema, numberedStore_spares, rfl, fetched, hwalk,
    hfetched.through le_rfl, Except.ok.inj hkeys, hfetched⟩

end

end AlertRegistry
