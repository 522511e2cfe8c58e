import AlertRegistry.Proofs.Repository.Rollback
import AlertRegistry.Proofs.Repository.Searching
import AlertRegistry.Proofs.Text.Wildcard

/-!
# The generic search

The generic search ignores the case of ASCII letters, so one expects it to find whatever the exact
search finds. `SearchesAlike` says how far that is so. A row that the exact search finds is found by
the generic one if the pattern of the needle is not too long, the needle is seen in one of the
searched texts, and all other rows that the generic search selects can be read; otherwise it is not.
A text is seen up to its first U+0000 only, so a needle behind one is missed
(`needle_behind_nul_is_missed`).

Both searches are compared on all their rows at once (`findAll`), of which the pages are slices.
-/

namespace AlertRegistry

/-- The pattern of the needle is not too long. -/
def FitsPattern (needle : String) : Prop :=
  (String.ofList (Text.containing needle.toList)).utf8ByteSize ≤ maxPatternSize

instance (needle : String) : Decidable (FitsPattern needle) :=
  inferInstanceAs (Decidable (_ ≤ _))

/-- The needle is seen in the text. -/
def IsSeen (needle text : String) : Prop :=
  Text.ShownIn needle.toList (Text.searchPoints text.toList)

instance (needle text : String) : Decidable (IsSeen needle text) :=
  inferInstanceAs (Decidable (Text.ShownIn _ _))

/-! ## Clauses -/

section

variable {γ : Type} {cs : List γ} {t : Tuple γ}

theorem Clause.holds_generic {needle : String} (h : FitsPattern needle) :
    (Clause.contains .generic cs needle).holds t
      = .ok (decide (∃ c ∈ cs, Text.ShownIn needle.toList (t c).searchPoints)) := by
  unfold holds
  dsimp only
  rw [if_neg (Nat.not_lt.2 h)]
  refine congrArg Except.ok (Bool.eq_iff_iff.2 ?_)
  rw [List.any_eq_true, decide_eq_true_iff]
  simp only [Text.matchesPattern_containing]

theorem Clause.holds_generic_of_not_fits {needle : String} (h : ¬ FitsPattern needle) :
    (Clause.contains .generic cs needle).holds t = .error .patternTooLong := by
  unfold holds
  exact if_pos (Nat.not_le.1 h)

namespace Filter

variable {needle : Option String}

/-- A needle that is asked for generically is either looked for in the columns or too long. -/
theorem holds_generic :
    (Filter.contains .generic cs needle).holds t
      = if ∀ n ∈ needle, FitsPattern n then
          .ok (decide (∀ n ∈ needle, ∃ c ∈ cs, Text.ShownIn n.toList (t c).searchPoints))
        else .error .patternTooLong := by
  cases needle with
  | none => simp [contains, holds]
  | some n =>
    unfold contains holds
    by_cases hn : FitsPattern n
    · simp only [Option.map_some, Option.toList_some, holds, Clause.holds_generic hn,
        Option.mem_some_iff, forall_eq', hn, if_true, bind, Except.bind, pure, Except.pure]
      by_cases hseen : ∃ c ∈ cs, Text.ShownIn n.toList (t c).searchPoints
      · rw [if_pos (decide_eq_true hseen), decide_eq_true hseen]
      · rw [decide_eq_false hseen]
        rfl
    · simp [hn, Clause.holds_generic_of_not_fits hn, bind, Except.bind]

variable {exact : Filter γ} (hexact : ∀ k ∈ exact, k.IsExact)

include hexact

theorem holds_append_caseSensitive :
    holds t (exact ++ contains .caseSensitive cs needle) = .ok true ↔
      (∀ k ∈ exact, k.Holds t) ∧ ∀ n ∈ needle, ∃ c ∈ cs, (t c).Contains n := by
  rw [holds_of_exact (List.forall_mem_append.2 ⟨hexact, isExact_contains cs needle⟩),
    Except.ok.injEq, decide_eq_true_iff, List.forall_mem_append, forall_mem_contains]

theorem holds_append_generic :
    holds t (exact ++ contains .generic cs needle) = .ok true ↔
      (∀ k ∈ exact, k.Holds t) ∧
        ∀ n ∈ needle, FitsPattern n ∧ ∃ c ∈ cs, Text.ShownIn n.toList (t c).searchPoints := by
  rw [holds_append_of_exact hexact, holds_generic]
  by_cases hk : ∀ k ∈ exact, k.Holds t
  · rw [if_pos hk]
    split
    · next hfits =>
      rw [Except.ok.injEq, decide_eq_true_iff]
      exact ⟨fun h => ⟨hk, fun n hn => ⟨hfits n hn, h n hn⟩⟩, fun h n hn => (h.2 n hn).2⟩
    · next hlong => exact iff_of_false nofun fun h => hlong fun n hn => (h.2 n hn).1
  · rw [if_neg hk]
    exact iff_of_false nofun fun h => hk h.1

/-- Only a pattern that is too long keeps the filter from being evaluated. -/
theorem exists_holds_append_generic :
    (∃ b, holds t (exact ++ contains .generic cs needle) = .ok b) ↔
      ((∀ k ∈ exact, k.Holds t) → ∀ n ∈ needle, FitsPattern n) := by
  rw [holds_append_of_exact hexact, holds_generic]
  by_cases hk : ∀ k ∈ exact, k.Holds t
  · rw [if_pos hk]
    split
    · next hfits => exact iff_of_true ⟨_, rfl⟩ fun _ => hfits
    · next hlong => exact iff_of_false nofun fun h => hlong (h hk)
  · rw [if_neg hk]
    exact iff_of_true ⟨_, rfl⟩ fun h => absurd h hk

end Filter

end

/-! ## All rows of a query -/

section

variable (α : Type) {ρ γ : Type} [Record α ρ γ]

/-- All rows that a query asks for, as if they were on one page. -/
def findAll (strategy : Strategy) (q : Query) (db : Database) : Except StoreError (List ρ) := do
  let matching ← (Record.filter α strategy q).select (Record.table α db).tuples
  matching.mapM (Record.readRow α db)

/-- Every tuple that the query selects can be read. -/
def Readable (strategy : Strategy) (q : Query) (db : Database) : Prop :=
  ∀ t ∈ (Record.table α db).tuples, (Record.filter α strategy q).holds t = .ok true →
    ∃ row, Record.readRow α db t = .ok row

/-- What is searched for needles in records of a kind: some columns, of which the rows have the
texts. -/
structure Searched (columns : List γ) (texts : ρ → List String) : Prop where
  /-- The page does not matter. -/
  pageable : Pageable α
  /-- The needle is asked for last, and all else exactly. -/
  filter (q : Query) : ∃ exact : Filter γ, (∀ k ∈ exact, k.IsExact) ∧
    ∀ strategy, Record.filter α strategy q = exact ++ Filter.contains strategy columns q.needle
  /-- The row has the texts in the columns. -/
  read {db : Database} {t : Tuple γ} {row : ρ} : Record.readRow α db t = .ok row →
    columns.map t = (texts row).map .text

/-- What the generic search finds of that which the exact search finds. -/
structure SearchesAlike (texts : ρ → List String) (s : Store) (q : Query) : Prop where
  /-- The pages of a search are the slices of all its rows. -/
  pages {strategy : Strategy} {rows : List ρ} :
    (s.read (findAll α strategy q)).1 = .ok rows → ∀ (limit : UInt32) (offset : Option UInt32),
      (s.read (fetchPage α strategy { q with limit, offset })).1
        = .ok { rows := slice offset limit rows, total := rows.length }
  /-- A row that the exact search finds is found by the generic one if the needle has a pattern and
  is seen in the row, and all rows that are selected can be read; and only then. -/
  found_iff {rows : List ρ} : (s.read (findAll α .caseSensitive q)).1 = .ok rows →
    ∀ row ∈ rows, (∃ found, (s.read (findAll α .generic q)).1 = .ok found ∧ row ∈ found) ↔
      (∀ n ∈ q.needle, FitsPattern n ∧ ∃ text ∈ texts row, IsSeen n text)
        ∧ Readable α .generic q s.view
  /-- That is so in particular if the row has no character U+0000. -/
  found {rows : List ρ} : (s.read (findAll α .caseSensitive q)).1 = .ok rows →
    (∀ n ∈ q.needle, FitsPattern n) → Readable α .generic q s.view →
    ∃ found, (s.read (findAll α .generic q)).1 = .ok found ∧
      ∀ row ∈ rows, (∀ text ∈ texts row, ¬ Text.HasNul text.toList) → row ∈ found

end

section

variable {α ρ γ : Type} [Record α ρ γ] {strategy : Strategy} {q : Query} {db : Database}

theorem findAll_of_select {selected : List (Tuple γ)}
    (h : (Record.filter α strategy q).select (Record.table α db).tuples = .ok selected) :
    findAll α strategy q db = selected.mapM (Record.readRow α db) := by
  unfold findAll
  rw [h]
  rfl

theorem mem_of_select {f : Filter γ} {ts selected : List (Tuple γ)}
    (h : f.select ts = .ok selected) {t : Tuple γ} :
    t ∈ selected ↔ t ∈ ts ∧ f.holds t = .ok true := by
  rw [Filter.eq_filter_of_select h, List.mem_filter, decide_eq_true_iff]
  refine and_congr_right fun _ => ?_
  cases f.holds t <;> simp [Except.toOption]

/-- All rows are found if the query can be evaluated and what it selects can be read. -/
theorem exists_findAll_iff :
    (∃ rows : List ρ, findAll α strategy q db = .ok rows) ↔
      (∀ t ∈ (Record.table α db).tuples, ∃ b, (Record.filter α strategy q).holds t = .ok b)
        ∧ Readable α strategy q db := by
  rw [← Filter.exists_select_iff]
  constructor
  · rintro ⟨rows, h⟩
    obtain ⟨selected, hselect, hread⟩ := bind_eq_ok h
    refine ⟨⟨selected, hselect⟩, fun t ht hholds => ?_⟩
    exact exists_mapM_iff.1 ⟨rows, hread⟩ t ((mem_of_select hselect).2 ⟨ht, hholds⟩)
  · rintro ⟨⟨selected, hselect⟩, hreadable⟩
    rw [findAll_of_select hselect, exists_mapM_iff]
    intro t ht
    obtain ⟨htuple, hholds⟩ := (mem_of_select hselect).1 ht
    exact hreadable t htuple hholds

/-- The rows that are found are those of the selected tuples. -/
theorem mem_findAll {rows : List ρ} (h : findAll α strategy q db = .ok rows) {row : ρ} :
    row ∈ rows ↔ ∃ t ∈ (Record.table α db).tuples,
      (Record.filter α strategy q).holds t = .ok true ∧ Record.readRow α db t = .ok row := by
  obtain ⟨selected, hselect, hread⟩ := bind_eq_ok h
  rw [mem_of_mapM hread]
  simp only [mem_of_select hselect, and_assoc]

namespace Searched

variable {columns : List γ} {texts : ρ → List String}

/-- A page of what is found is a slice of it. -/
theorem fetchPage_of_findAll (h : Searched α columns texts) {rows : List ρ}
    (hfound : findAll α strategy q db = .ok rows) (limit : UInt32) (offset : Option UInt32) :
    fetchPage α strategy { q with limit, offset } db
      = .ok { rows := slice offset limit rows, total := rows.length } := by
  obtain ⟨selected, hselect, hread⟩ := bind_eq_ok hfound
  have hpage : (Record.filter α strategy { q with limit, offset }).select
      (Record.table α db).tuples = .ok selected := by
    rw [← hselect]
    exact congrArg (Filter.select · _) (h.pageable strategy q limit offset)
  have hrows := mapM_eq_ok_iff.1 hread
  have hslice : (slice offset limit selected).mapM (Record.readRow α db)
      = .ok (slice offset limit rows) :=
    mapM_eq_ok_iff.2 (List.forall₂_take _ (List.forall₂_drop _ hrows))
  rw [fetchPage_of_select hpage, hslice, hrows.length_eq]
  rfl

/-- A column of a tuple has the property if a text of the row has it. -/
theorem exists_column_iff (h : Searched α columns texts) {t : Tuple γ} {row : ρ}
    (hread : Record.readRow α db t = .ok row) (P : Cell → Prop) :
    (∃ c ∈ columns, P (t c)) ↔ ∃ text ∈ texts row, P (.text text) := by
  have hcolumns : (∃ c ∈ columns, P (t c)) ↔ ∃ x ∈ columns.map t, P x := by simp
  rw [hcolumns, h.read hread]
  simp

theorem searchesAlike (h : Searched α columns texts) {s : Store}
    (hunlocked : s.others.wait = false) (q : Query) : SearchesAlike α texts s q := by
  obtain ⟨exact, hexact, hfilter⟩ := h.filter q
  -- what the exact search has found was asked for and has the needle in one of its texts
  have hasked : ∀ {rows : List ρ}, findAll α .caseSensitive q s.view = .ok rows → ∀ row ∈ rows,
      ∃ t ∈ (Record.table α s.view).tuples, Record.readRow α s.view t = .ok row
        ∧ (∀ k ∈ exact, k.Holds t)
        ∧ ∀ n ∈ q.needle, ∃ text ∈ texts row, n.toList <:+: text.toList := by
    intro rows hrows row hrow
    obtain ⟨t, ht, hholds, hread⟩ := (mem_findAll hrows).1 hrow
    rw [hfilter, Filter.holds_append_caseSensitive hexact] at hholds
    refine ⟨t, ht, hread, hholds.1, fun n hn => ?_⟩
    exact (h.exists_column_iff hread (·.Contains n)).1 (hholds.2 n hn)
  -- the generic search selects a tuple that was asked for if it sees the needle in the row
  have hseen : ∀ {t : Tuple γ} {row : ρ}, Record.readRow α s.view t = .ok row →
      ((Record.filter α .generic q).holds t = .ok true ↔ (∀ k ∈ exact, k.Holds t)
        ∧ ∀ n ∈ q.needle, FitsPattern n ∧ ∃ text ∈ texts row, IsSeen n text) := by
    intro t row hread
    rw [hfilter, Filter.holds_append_generic hexact]
    refine and_congr_right fun _ => forall₂_congr fun n _ => and_congr_right fun _ => ?_
    exact h.exists_column_iff hread fun x => Text.ShownIn n.toList x.searchPoints
  have hevaluable : (∀ n ∈ q.needle, FitsPattern n) → ∀ t ∈ (Record.table α s.view).tuples,
      ∃ b, (Record.filter α .generic q).holds t = .ok b := by
    intro hfits t _
    rw [hfilter, Filter.exists_holds_append_generic hexact]
    exact fun _ => hfits
  refine ⟨?_, ?_, ?_⟩
  · intro strategy rows hrows limit offset
    rw [Store.read_result hunlocked] at hrows ⊢
    exact h.fetchPage_of_findAll hrows limit offset
  · intro rows hrows row hrow
    rw [Store.read_result hunlocked] at hrows ⊢
    constructor
    · rintro ⟨found, hfound, hmem⟩
      obtain ⟨t, _, hholds, hread⟩ := (mem_findAll hfound).1 hmem
      exact ⟨((hseen hread).1 hholds).2, (exists_findAll_iff.1 ⟨found, hfound⟩).2⟩
    · rintro ⟨hneedle, hreadable⟩
      obtain ⟨t, ht, hread, hk, _⟩ := hasked hrows row hrow
      obtain ⟨found, hfound⟩ :=
        exists_findAll_iff.2 ⟨hevaluable fun n hn => (hneedle n hn).1, hreadable⟩
      exact ⟨found, hfound, (mem_findAll hfound).2 ⟨t, ht, (hseen hread).2 ⟨hk, hneedle⟩, hread⟩⟩
  · intro rows hrows hfits hreadable
    rw [Store.read_result hunlocked] at hrows ⊢
    obtain ⟨found, hfound⟩ := exists_findAll_iff.2 ⟨hevaluable hfits, hreadable⟩
    refine ⟨found, hfound, fun row hrow hnul => ?_⟩
    obtain ⟨t, ht, hread, hk, hcontains⟩ := hasked hrows row hrow
    refine (mem_findAll hfound).2 ⟨t, ht, (hseen hread).2 ⟨hk, fun n hn => ⟨hfits n hn, ?_⟩⟩, hread⟩
    obtain ⟨text, htext, hinfix⟩ := hcontains n hn
    exact ⟨text, htext, Text.shownIn_of_infix (hnul text htext) hinfix⟩

end Searched

end

/-! ## Alerts and expressions -/

/-- The texts of an alert that are searched. -/
def AlertRow.searchedTexts (r : AlertRow) : List String :=
  [r.name, r.cluster, r.service, r.metric]

/-- The texts of an expression that are searched. -/
def ExpressionRow.searchedTexts (r : ExpressionRow) : List String :=
  [r.cluster, r.service, r.metric]

theorem searched_alert :
    Searched Alert [.name, .cluster, .service, .metric] AlertRow.searchedTexts where
  pageable := pageable_alert
  filter q := by
    refine ⟨Filter.equals .cluster q.cluster ++ Filter.equals .service q.service
      ++ Filter.equals .context (q.context.map Context.name), ?_, fun strategy => rfl⟩
    simp only [List.forall_mem_append]
    exact ⟨⟨Filter.isExact_equals _ _, Filter.isExact_equals _ _⟩, Filter.isExact_equals _ _⟩
  read hread := by
    have h := AlertRow.textsOf_read hread
    simp [AlertRow.searchedTexts, h.name, h.cluster, h.service, h.metric]

theorem searched_expression :
    Searched Expression [.cluster, .service, .metric] ExpressionRow.searchedTexts where
  pageable := pageable_expression
  filter q := by
    refine ⟨Filter.equals .cluster q.cluster ++ Filter.equals .service q.service, ?_,
      fun strategy => rfl⟩
    simp only [List.forall_mem_append]
    exact ⟨Filter.isExact_equals _ _, Filter.isExact_equals _ _⟩
  read hread := by
    have h := ExpressionRow.textsOf_ofTuple hread
    simp [ExpressionRow.searchedTexts, h.cluster, h.service, h.metric]

/-- The generic search finds those of the rows that the exact search finds in which it sees the
needle. -/
theorem generic_search_finds_seen (s : Store) (hunlocked : s.others.wait = false) (q : Query) :
    SearchesAlike Alert AlertRow.searchedTexts s q
      ∧ SearchesAlike Expression ExpressionRow.searchedTexts s q :=
  ⟨searched_alert.searchesAlike hunlocked q, searched_expression.searchesAlike hunlocked q⟩

/-- An alert whose name goes on behind a character U+0000. -/
def hiddenAlert : Alert :=
  { AlertRow.watchedAlert with name := "disk\x00full" }

/-- The store on which the alert was created. -/
def hiddenStore : Store :=
  (Repository.openAlerts.upsert 1 hiddenAlert {}).store

/-- The row of the alert. -/
def hiddenRow : AlertRow :=
  { AlertRow.rowOf hiddenAlert (some { severity := some "high" }) with
    version := 1, createdAt := 1, updatedAt := 1 }

/-- Up to the character U+0000 the name is searched. -/
theorem needle_before_nul_is_found :
    hiddenStore.others.wait = false
      ∧ (hiddenStore.read (findAll Alert .caseSensitive { needle := some "disk" })).1
        = .ok [hiddenRow]
      ∧ ∃ found, (hiddenStore.read (findAll Alert .generic { needle := some "disk" })).1
          = .ok found
        ∧ hiddenRow ∈ found := by
  have hexact : (hiddenStore.read (findAll Alert .caseSensitive { needle := some "disk" })).1
      = .ok [hiddenRow] := by
    with_unfolding_all rfl
  have hread : hiddenStore.view.alerts.tuples.mapM (Record.readRow Alert hiddenStore.view)
      = .ok [hiddenRow] := by
    with_unfolding_all rfl
  refine ⟨rfl, hexact, ?_⟩
  refine ((generic_search_finds_seen hiddenStore rfl _).1.found_iff hexact hiddenRow
    List.mem_cons_self).2 ⟨?_, fun t ht _ => exists_mapM_iff.1 ⟨_, hread⟩ t ht⟩
  rintro n ⟨⟩
  exact ⟨by decide +kernel, "disk\x00full", List.mem_cons_self, by decide +kernel⟩

/-- A needle behind the character U+0000 is missed, although the name contains it. -/
theorem needle_behind_nul_is_missed :
    hiddenStore.others.wait = false
      ∧ (hiddenStore.read (findAll Alert .caseSensitive { needle := some "full" })).1
        = .ok [hiddenRow]
      ∧ ¬ ∃ found, (hiddenStore.read (findAll Alert .generic { needle := some "full" })).1
          = .ok found
        ∧ hiddenRow ∈ found := by
  have hexact : (hiddenStore.read (findAll Alert .caseSensitive { needle := some "full" })).1
      = .ok [hiddenRow] := by
    with_unfolding_all rfl
  refine ⟨rfl, hexact, fun hfound => ?_⟩
  obtain ⟨hseen, _⟩ := ((searched_alert.searchesAlike rfl _).found_iff hexact hiddenRow
    List.mem_cons_self).1 hfound
  obtain ⟨_, hsome⟩ := hseen "full" rfl
  revert hsome
  decide +kernel

end AlertRegistry
