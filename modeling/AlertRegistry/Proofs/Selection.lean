import AlertRegistry.Proofs.Condition
import AlertRegistry.Proofs.Reading
import AlertRegistry.Proofs.Text.Words
import AlertRegistry.Record

/-!
# What statements select

The text of a filter is read back as the tests of its clauses (`Clauses.ofText?_text`), and the
values for its placeholders come to the tests that they were made for (`Clauses.assign_tests`). So a
row that shows a tuple satisfies the clauses if the tuple satisfies the filter
(`Clauses.holds_assign`).

On a source that shows the tuples of a table the statement that counts gives the number of the
selected tuples (`Source.count_eq`), and the one for a page reads a run of them (`Source.page_eq`).
Both statements of a search go through the same tuples, although they have sources of their own: a
page is a slice of the selected tuples and counts all of them (`Search.fetch_eq`).
-/

namespace AlertRegistry

open Text (IsName words)

variable {γ : Type} {name : γ → String}

/-! ## The words of clauses -/

/-- The test of a column that a strategy makes. -/
def ColumnTest.of : Strategy → String → ColumnTest
  | .generic, c => like c
  | .caseSensitive, c => contains c

/-- The words of the test. -/
def ColumnTest.wordsOf : Strategy → String → List String
  | .generic, c => [c, "LIKE", "?", "ESCAPE", "'", "\\", "'"]
  | .caseSensitive, c => ["instr", "(", c, ",", "?", ")", ">", "0"]

/-- The words of tests, apart from names. -/
def testSigns : List String :=
  ["LIKE", "?", "ESCAPE", "'", "\\", "instr", "(", ",", ")", ">", "0"]

/-- The words of clauses, apart from names. -/
def clauseSigns : List String :=
  "=" :: "OR" :: testSigns

namespace ColumnTest

theorem words_test {strategy : Strategy} {needle c : String} (h : IsName c) :
    words (Condition.test strategy needle c).1.toList = wordsOf strategy c := by
  cases strategy with
  | generic =>
    have htext : (c ++ " LIKE ? ESCAPE '\\'").toList
        = c.toList ++ ' ' :: "LIKE ? ESCAPE '\\'".toList :=
      String.toList_append ..
    show words (c ++ " LIKE ? ESCAPE '\\'").toList = _
    rw [htext, Text.words_append_blank, Text.words_of_isName h]
    rfl
  | caseSensitive =>
    have htext : ("instr(" ++ c ++ ", ?) > 0").toList
        = "instr".toList ++ '(' :: (c.toList ++ ',' :: " ?) > 0".toList) := by
      simp
    show words ("instr(" ++ c ++ ", ?) > 0").toList = _
    rw [htext, Text.words_append_cons (by decide), Text.words_append_cons (by decide),
      Text.words_of_isName h]
    rfl

theorem ofWords?_wordsOf (strategy : Strategy) (c : String) :
    ofWords? (wordsOf strategy c) = some (of strategy c) := by
  cases strategy <;> rfl

theorem mem_wordsOf {strategy : Strategy} {c w : String} (h : w ∈ wordsOf strategy c) :
    w = c ∨ w ∈ testSigns := by
  cases strategy <;> simp [wordsOf, testSigns] at h ⊢ <;> tauto

end ColumnTest

namespace Clause

/-- The tests of a clause. -/
def tests (name : γ → String) : Clause γ → List ColumnTest
  | equals c _ => [.equals (name c)]
  | contains strategy cs _ => cs.map fun c => .of strategy (name c)

/-- The words of a clause. -/
def wordsOf (name : γ → String) : Clause γ → List String
  | equals c _ => [name c, "=", "?"]
  | contains strategy cs _ =>
    "(" :: (["OR"].intercalate (cs.map fun c => ColumnTest.wordsOf strategy (name c)) ++ [")"])

theorem words_text (hname : ∀ c, IsName (name c)) (k : Clause γ) :
    words (k.text name).toList = k.wordsOf name := by
  cases k with
  | equals c value =>
    have htext : (name c ++ " = ?").toList = (name c).toList ++ ' ' :: "= ?".toList :=
      String.toList_append ..
    show words (name c ++ " = ?").toList = _
    rw [htext, Text.words_append_blank, Text.words_of_isName (hname c)]
    rfl
  | contains strategy cs needle =>
    have htests : (cs.map fun c => (Condition.test strategy needle (name c)).1).map
        (fun t => words t.toList) = cs.map fun c => ColumnTest.wordsOf strategy (name c) := by
      rw [List.map_map]
      exact List.map_congr_left fun c _ => ColumnTest.words_test (hname c)
    have htext (s : String) : ("(" ++ s ++ ")").toList = [] ++ '(' :: (s.toList ++ ')' :: []) := by
      simp
    rw [text_contains, htext, Text.words_append_cons (by decide),
      Text.words_append_cons (by decide)]
    have hjoined := Text.words_intercalate (w := "OR") (by decide)
      (cs.map fun c => (Condition.test strategy needle (name c)).1)
    rw [htests] at hjoined
    rw [show " OR " = " " ++ "OR" ++ " " from by decide, hjoined]
    rfl

theorem mem_wordsOf {k : Clause γ} {w : String} (h : w ∈ k.wordsOf name) :
    (∃ c, w = name c) ∨ w ∈ clauseSigns := by
  cases k with
  | equals c value =>
    simp only [wordsOf, List.mem_cons, List.not_mem_nil, or_false] at h
    obtain rfl | rfl | rfl := h
    · exact .inl ⟨c, rfl⟩
    · exact .inr (by decide)
    · exact .inr (by decide)
  | contains strategy cs needle =>
    simp only [wordsOf, List.mem_cons, List.mem_append, List.not_mem_nil, or_false] at h
    obtain rfl | h | rfl := h
    · exact .inr (by decide)
    · obtain rfl | ⟨l, hl, hw⟩ := Text.mem_intercalate h
      · exact .inr (by decide)
      · obtain ⟨c, _, rfl⟩ := List.mem_map.1 hl
        exact (ColumnTest.mem_wordsOf hw).imp (fun h => ⟨c, h⟩)
          fun h => List.mem_cons_of_mem _ (List.mem_cons_of_mem _ h)
    · exact .inr (by decide)

/-- The words of a clause are read as its tests. -/
theorem clause?_wordsOf (hname : ∀ c, IsName (name c)) {k : Clause γ} (hne : k.columns ≠ []) :
    Clauses.clause? (k.wordsOf name) = some (k.tests name) := by
  cases k with
  | equals c value =>
    have hopen : name c ≠ "(" := Text.ne_of_isName (hname c) (by decide)
    show Clauses.clause? [name c, "=", "?"] = some [.equals (name c)]
    simp [Clauses.clause?, hopen, ColumnTest.ofWords?]
  | contains strategy cs needle =>
    have hpieces : Text.pieces "OR"
        (["OR"].intercalate (cs.map fun c => ColumnTest.wordsOf strategy (name c)))
        = cs.map fun c => ColumnTest.wordsOf strategy (name c) := by
      refine Text.pieces_intercalate (fun h => hne (List.map_eq_nil_iff.1 h)) fun l hl hor => ?_
      obtain ⟨c, _, rfl⟩ := List.mem_map.1 hl
      obtain hc | hsign := ColumnTest.mem_wordsOf hor
      · exact Text.ne_of_isName (hname c) (by decide) hc.symm
      · exact absurd hsign (by decide)
    show (if (_ ++ [")"]).getLast? = some ")" then _ else none) = _
    rw [List.getLast?_concat, if_pos rfl, List.dropLast_concat, hpieces, List.mapM_map]
    show cs.mapM (fun c => ColumnTest.ofWords? (ColumnTest.wordsOf strategy (name c))) = _
    simp only [ColumnTest.ofWords?_wordsOf]
    exact List.mapM_pure

theorem length_tests (k : Clause γ) : (k.tests name).length = k.binds.length := by
  cases k with
  | equals c value => rfl
  | contains strategy cs needle => rw [binds_contains name, tests, List.length_map, List.length_map]

theorem column_of_mem_tests {k : Clause γ} {test : ColumnTest} (h : test ∈ k.tests name) :
    ∃ c, test.column = name c := by
  cases k with
  | equals c value => exact ⟨c, by rw [List.mem_singleton.1 h]; rfl⟩
  | contains strategy cs needle =>
    obtain ⟨c, _, rfl⟩ := List.mem_map.1 h
    exact ⟨c, by cases strategy <;> rfl⟩

end Clause

/-! ## The words of filters -/

namespace Clauses

theorem words_text (hname : ∀ c, IsName (name c)) (f : Filter γ) :
    words (Filter.text name f).toList
      = if f.isEmpty then [] else "WHERE" :: ["AND"].intercalate (f.map (Clause.wordsOf name)) := by
  unfold Filter.text
  split
  · rfl
  · have htext (s : String) : (" WHERE " ++ s).toList = " WHERE".toList ++ ' ' :: s.toList := by
      simp
    have hclauses : (f.map (Clause.text name)).map (fun t => words t.toList)
        = f.map (Clause.wordsOf name) := by
      rw [List.map_map]
      exact List.map_congr_left fun k _ => k.words_text hname
    rw [htext, Text.words_append_blank, show " AND " = " " ++ "AND" ++ " " from by decide,
      Text.words_intercalate (by decide), hclauses]
    rfl

/-- No word of a filter looks like the end of one. -/
theorem isEnd_of_mem (hname : ∀ c, IsName (name c)) {f : Filter γ} {w : String}
    (h : w ∈ words (Filter.text name f).toList) : isEnd w = false := by
  have hsigns : ∀ w ∈ "WHERE" :: "AND" :: clauseSigns, isEnd w = false := by decide
  rw [words_text hname] at h
  split at h
  · cases h
  · rw [List.mem_cons] at h
    obtain rfl | h := h
    · rfl
    · obtain rfl | ⟨l, hl, hw⟩ := Text.mem_intercalate h
      · rfl
      · obtain ⟨k, _, rfl⟩ := List.mem_map.1 hl
        obtain ⟨c, rfl⟩ | hsign := Clause.mem_wordsOf hw
        · simp [isEnd, Text.ne_of_isName (hname c)]
        · exact hsigns w (List.mem_cons_of_mem _ (List.mem_cons_of_mem _ hsign))

theorem ofWords?_text (hname : ∀ c, IsName (name c)) {f : Filter γ}
    (hne : ∀ k ∈ f, k.columns ≠ []) :
    ofWords? (words (Filter.text name f).toList) = some (f.map (Clause.tests name)) := by
  rw [words_text hname]
  split
  · next hempty =>
    rw [List.isEmpty_iff.1 hempty]
    rfl
  · next hempty =>
    have hpieces : Text.pieces "AND" (["AND"].intercalate (f.map (Clause.wordsOf name)))
        = f.map (Clause.wordsOf name) := by
      refine Text.pieces_intercalate (by simpa using hempty) fun l hl hand => ?_
      obtain ⟨k, _, rfl⟩ := List.mem_map.1 hl
      obtain ⟨c, hc⟩ | hsign := Clause.mem_wordsOf hand
      · exact Text.ne_of_isName (hname c) (by decide) hc.symm
      · exact absurd hsign (by decide)
    show (Text.pieces "AND" _).mapM clause? = _
    rw [hpieces, List.mapM_map]
    clear hpieces hempty
    induction f with
    | nil => rfl
    | cons k f ih =>
      rw [List.forall_mem_cons] at hne
      rw [List.mapM_cons, ih hne.2]
      simp [Clause.clause?_wordsOf hname hne.1]

/-- The text of a filter is read as its clauses, whatever comes after them. -/
theorem ofText?_text (hname : ∀ c, IsName (name c)) {f : Filter γ}
    (hne : ∀ k ∈ f, k.columns ≠ []) {ending : String} {w : String} {ws : List String}
    (hending : words (Filter.text name f ++ ending).toList
      = words (Filter.text name f).toList ++ w :: ws) (hw : isEnd w = true) :
    ofText? (Filter.text name f ++ ending) = some (f.map (Clause.tests name), w :: ws) := by
  have hclauses : ∀ w ∈ words (Filter.text name f).toList, (!isEnd w) = true := fun w h => by
    rw [isEnd_of_mem hname h]
    rfl
  unfold ofText?
  simp only [hending]
  rw [List.takeWhile_append_of_pos hclauses, List.dropWhile_append_of_pos hclauses,
    List.takeWhile_cons_of_neg (by simp [hw]), List.dropWhile_cons_of_neg (by simp [hw]),
    List.append_nil, ofWords?_text hname hne]
  rfl

end Clauses

/-! ## Values -/

namespace ColumnTest

/-- The test of a column for the value that was made for it. -/
theorem holds_of {row : Tuple String} {t : Tuple γ} (h : ∀ c, row (name c) = t c)
    (strategy : Strategy) (needle : String) (c : γ) :
    (of strategy (name c)).holds row (.text (Condition.test strategy needle (name c)).2)
      = (Clause.contains strategy [c] needle).holds t := by
  cases strategy with
  | generic =>
    simp only [of, holds, holdsFor, Condition.test, Clause.holds, h, String.toList_ofList,
      List.any_cons, List.any_nil, Bool.or_false]
  | caseSensitive =>
    simp only [of, holds, holdsFor, Condition.test, Clause.holds, h, List.any_cons, List.any_nil,
      Bool.or_false]

end ColumnTest

namespace Clause

/-- A needle is looked for in one column after the other. -/
theorem holds_contains_cons (t : Tuple γ) (strategy : Strategy) (needle : String) (c d : γ)
    (cs : List γ) :
    (contains strategy (c :: d :: cs) needle).holds t = (do
      if ← (contains strategy [c] needle).holds t then return true
      else (contains strategy (d :: cs) needle).holds t) := by
  cases strategy with
  | generic =>
    unfold holds
    dsimp only
    split
    · rfl
    · simp only [List.any_cons, List.any_nil, Bool.or_false, bind, Except.bind]
      split <;> simp_all [pure, Except.pure]
  | caseSensitive =>
    unfold holds
    simp only [List.any_cons, List.any_nil, Bool.or_false, bind, Except.bind]
    split <;> simp_all [pure, Except.pure]

/-- A row satisfies the tests of a clause for their values if its tuple satisfies the clause. -/
theorem anyM_tests {row : Tuple String} {t : Tuple γ} (h : ∀ c, row (name c) = t c) {k : Clause γ}
    (hne : k.columns ≠ []) :
    ((k.tests name).zip (k.binds.map Cell.text)).anyM (fun test => test.1.holds row test.2)
      = k.holds t := by
  cases k with
  | equals c value =>
    show (do
      match ← (ColumnTest.equals (name c)).holds row (.text value) with
      | true => pure true
      | false => pure false) = _
    simp only [ColumnTest.holds, ColumnTest.holdsFor, h, holds, bind, Except.bind]
    split <;> simp_all [pure, Except.pure]
  | contains strategy cs needle =>
    replace hne : cs ≠ [] := hne
    rw [binds_contains name, tests, List.map_map, List.zip_map']
    simp only [Function.comp_apply]
    induction cs with
    | nil => exact absurd rfl hne
    | cons c cs ih =>
      rw [List.map_cons, List.anyM]
      rw [ColumnTest.holds_of h]
      cases cs with
      | nil =>
        simp only [List.map_nil, List.anyM, bind, Except.bind]
        split
        · simp_all
        · split <;> simp_all [pure, Except.pure]
      | cons d cs =>
        rw [holds_contains_cons, ih (List.cons_ne_nil d cs)]
        refine bind_congr fun b => ?_
        cases b <;> rfl

end Clause

namespace Clauses

theorem size_tests (f : Filter γ) : size (f.map (Clause.tests name)) = (Filter.binds f).length := by
  induction f with
  | nil => rfl
  | cons k f ih =>
    simp only [size, Filter.binds, List.map_cons, List.flatten_cons, List.flatMap_cons,
      List.length_append, Clause.length_tests] at ih ⊢
    rw [ih]

/-- Each test gets the value that was made for it, whatever values come after them. -/
theorem assign_tests (f : Filter γ) (values : List Cell) :
    assign (f.map (Clause.tests name)) ((Filter.binds f).map Cell.text ++ values)
      = f.map fun k => (k.tests name).zip (k.binds.map Cell.text) := by
  induction f with
  | nil => rfl
  | cons k f ih =>
    have hlength : (k.tests name).length = (k.binds.map Cell.text).length := by
      rw [k.length_tests, List.length_map]
    have hvalues : (Filter.binds (k :: f)).map Cell.text ++ values
        = k.binds.map Cell.text ++ ((Filter.binds f).map Cell.text ++ values) := by
      simp [Filter.binds]
    rw [List.map_cons, assign, hvalues, List.map_cons]
    congr 1
    · conv_lhs => rw [← List.append_nil (k.tests name)]
      rw [List.zip_append hlength, List.zip_nil_left, List.append_nil]
    · rw [hlength, List.drop_left, ih]

/-- A row that shows a tuple satisfies the clauses of a filter if the tuple satisfies it. -/
theorem holds_assign {row : Tuple String} {t : Tuple γ} (h : ∀ c, row (name c) = t c)
    {f : Filter γ} (hne : ∀ k ∈ f, k.columns ≠ []) (values : List Cell) :
    holds row (assign (f.map (Clause.tests name)) ((Filter.binds f).map Cell.text ++ values))
      = f.holds t := by
  rw [assign_tests]
  induction f with
  | nil => rfl
  | cons k f ih =>
    rw [List.forall_mem_cons] at hne
    unfold holds at ih ⊢
    rw [List.map_cons, List.allM, Clause.anyM_tests h hne.1, ih hne.2, Filter.holds]
    refine bind_congr fun b => ?_
    cases b <;> rfl

end Clauses

/-! ## Statements -/

namespace Source

variable {S : Source} {ts : List (Tuple γ)} {rowOf : Tuple γ → Tuple String}

/-- A statement on the clauses of a filter is permitted if there are as many values as it needs. -/
theorem check_tests (h : S.Shows name ts rowOf) (f : Filter γ) {names : List String}
    (hnames : ∀ n ∈ names, n = S.rowNumber) (n : Nat) :
    S.check (f.map (Clause.tests name)) names n n = .ok () := by
  have hcolumns : Clauses.unknown? S.columns (f.map (Clause.tests name)) = none := by
    refine List.find?_eq_none.2 fun column hcolumn => ?_
    obtain ⟨test, htest, rfl⟩ := List.mem_map.1 hcolumn
    obtain ⟨tests, htests, hmem⟩ := List.mem_flatten.1 htest
    obtain ⟨k, _, rfl⟩ := List.mem_map.1 htests
    obtain ⟨c, hc⟩ := Clause.column_of_mem_tests hmem
    simp [hc, h.columns c]
  have hfind : (names.find? fun n => n ≠ S.rowNumber) = none :=
    List.find?_eq_none.2 fun n hn => by simp [hnames n hn]
  unfold check
  rw [hcolumns, hfind]
  exact if_pos rfl

/-- The rows of which a filter holds are as many as the tuples that it selects. -/
theorem tally_map {p : Tuple String → Except StoreError Bool} {f : Filter γ}
    (hp : ∀ t, p (rowOf t) = f.holds t) (ts : List (Tuple γ)) :
    tally p (ts.map rowOf) = (f.select ts).map List.length := by
  induction ts with
  | nil => rfl
  | cons t ts ih =>
    rw [List.map_cons, tally, hp, ih, Filter.select]
    cases f.holds t with
    | error e => rfl
    | ok b =>
      cases f.select ts with
      | error e => rfl
      | ok selected => cases b <;> rfl

/-- The rows of which a filter holds are read as a run of the tuples that it selects. -/
theorem scan_map {ρ : Type} {p : Tuple String → Except StoreError Bool} {f : Filter γ}
    (hp : ∀ t, p (rowOf t) = f.holds t) (read : Tuple String → Except StoreError ρ)
    {ts selected : List (Tuple γ)} (h : f.select ts = .ok selected) (limit offset : Nat) :
    scan p read limit offset (ts.map rowOf)
      = ((selected.drop offset).take limit).mapM fun t => read (rowOf t) := by
  induction ts generalizing selected limit offset with
  | nil =>
    cases h
    cases limit <;> simp [scan, pure, Except.pure]
  | cons t ts ih =>
    rw [Filter.select] at h
    obtain ⟨b, hb, h⟩ := bind_eq_ok h
    obtain ⟨rest, hrest, h⟩ := bind_eq_ok h
    cases h
    cases limit with
    | zero => simp [scan, pure, Except.pure]
    | succ limit =>
      cases offset with
      | succ offset =>
        rw [List.map_cons, scan, hp, hb]
        cases b with
        | false => exact ih hrest (limit + 1) (offset + 1)
        | true => exact ih hrest (limit + 1) offset
      | zero =>
        rw [List.map_cons, scan, hp, hb]
        cases b with
        | false => exact ih hrest (limit + 1) 0
        | true =>
          show (do
            let r ← read (rowOf t)
            let rs ← scan p read limit 0 (ts.map rowOf)
            return r :: rs) = _
          rw [ih hrest limit 0]
          simp only [if_true, List.drop_zero, List.take_succ_cons, List.mapM_cons]

/-- The rows that satisfy the clauses of a filter are as many as the selected tuples. -/
theorem countWhere_eq (h : S.Shows name ts rowOf) {f : Filter γ}
    (hne : ∀ k ∈ f, k.columns ≠ []) :
    S.countWhere (f.map (Clause.tests name)) ((Filter.binds f).map Cell.text)
      = (f.select ts).map List.length := by
  have hholds (t : Tuple γ) : Clauses.holds (rowOf t)
      (Clauses.assign (f.map (Clause.tests name)) ((Filter.binds f).map Cell.text))
      = f.holds t := by
    have hassign := Clauses.holds_assign (h.cells t) hne []
    rwa [List.append_nil] at hassign
  unfold countWhere
  rw [Clauses.size_tests, List.length_map, check_tests h f (List.forall_mem_nil _), h.rows]
  exact tally_map hholds ts

/-- A run of the rows that satisfy the clauses of a filter is one of the selected tuples. -/
theorem pageWhere_eq {ρ : Type} (h : S.Shows name ts rowOf) {f : Filter γ}
    (hne : ∀ k ∈ f, k.columns ≠ []) {selected : List (Tuple γ)}
    (hselect : f.select ts = .ok selected)
    (read : Tuple String → Except StoreError ρ) (limit offset : Nat) :
    S.pageWhere (f.map (Clause.tests name)) S.rowNumber
        ((Filter.binds f).map Cell.text ++ [.integer limit, .integer offset]) read
      = ((selected.drop offset).take limit).mapM fun t => read (rowOf t) := by
  have hsize : Clauses.size (f.map (Clause.tests name))
      = ((Filter.binds f).map Cell.text).length := by
    rw [Clauses.size_tests, List.length_map]
  unfold pageWhere
  rw [hsize, List.length_append, List.drop_left,
    show [Cell.integer limit, .integer offset].length = 2 from rfl,
    check_tests h f (by simp), h.rows]
  show scan _ read (if (limit : Int) < 0 then _ else (limit : Int).toNat) (offset : Int).toNat _ = _
  rw [if_neg (Int.not_lt.2 (Int.natCast_nonneg limit)), Int.toNat_natCast, Int.toNat_natCast]
  exact scan_map (fun t => Clauses.holds_assign (h.cells t) hne _) read hselect limit offset

/-- The statement that counts is read as that, and gives the number of the selected tuples. -/
theorem count_eq (h : S.Shows name ts rowOf) (hname : ∀ c, IsName (name c)) {f : Filter γ}
    (hne : ∀ k ∈ f, k.columns ≠ []) :
    S.count (Filter.text name f ++ ";") ((Filter.binds f).map Cell.text)
      = (f.select ts).map List.length := by
  have hending : words (Filter.text name f ++ ";").toList
      = words (Filter.text name f).toList ++ [";"] := by
    rw [String.toList_append]
    exact Text.words_append_cons (by decide) _ []
  unfold count
  rw [Clauses.ofText?_text hname hne hending rfl]
  exact countWhere_eq h hne

/-- The statement for a page is read as that, and reads a run of the selected tuples. -/
theorem page_eq {ρ : Type} (h : S.Shows name ts rowOf) (hname : ∀ c, IsName (name c))
    (hnumber : IsName S.rowNumber) {f : Filter γ} (hne : ∀ k ∈ f, k.columns ≠ [])
    {selected : List (Tuple γ)} (hselect : f.select ts = .ok selected)
    (read : Tuple String → Except StoreError ρ) (limit offset : Nat) :
    S.page (Filter.text name f ++ " ORDER BY " ++ S.rowNumber ++ " ASC LIMIT ? OFFSET ?;")
        ((Filter.binds f).map Cell.text ++ [.integer limit, .integer offset]) read
      = ((selected.drop offset).take limit).mapM fun t => read (rowOf t) := by
  have hassoc : Filter.text name f ++ " ORDER BY " ++ S.rowNumber ++ " ASC LIMIT ? OFFSET ?;"
      = Filter.text name f ++ (" ORDER BY " ++ S.rowNumber ++ " ASC LIMIT ? OFFSET ?;") := by
    simp only [String.append_assoc]
  have hending : words (Filter.text name f
        ++ (" ORDER BY " ++ S.rowNumber ++ " ASC LIMIT ? OFFSET ?;")).toList
      = words (Filter.text name f).toList
        ++ ["ORDER", "BY", S.rowNumber, "ASC", "LIMIT", "?", "OFFSET", "?", ";"] := by
    have htext : (Filter.text name f
          ++ (" ORDER BY " ++ S.rowNumber ++ " ASC LIMIT ? OFFSET ?;")).toList
        = (Filter.text name f).toList ++ ' ' :: ("ORDER BY".toList ++ ' ' :: (S.rowNumber.toList
          ++ ' ' :: "ASC LIMIT ? OFFSET ?;".toList)) := by
      simp
    rw [htext, Text.words_append_blank, Text.words_append_blank, Text.words_append_blank,
      Text.words_of_isName hnumber]
    rfl
  unfold page
  rw [hassoc, Clauses.ofText?_text hname hne hending rfl]
  exact pageWhere_eq h hne hselect read limit offset

end Source

/-! ## Searches -/

namespace Search

variable {ρ : Type} {table : Database → Table γ}
  {readRow : Database → Tuple γ → Except StoreError ρ} {filter : Strategy → Query → Filter γ}
  (S : Search table readRow filter)

include S in
/-- Every clause of a search asks for a column. -/
theorem columns_ne_nil_of_mem {strategy : Strategy} {q : Query} :
    ∀ k ∈ filter strategy q, k.columns ≠ [] := by
  intro k hk
  rw [S.filter_eq] at hk
  obtain ⟨a, ha, hka⟩ := List.mem_flatMap.1 hk
  rw [Criterion.columns_of_mem_filter hka]
  exact S.columns_ne_nil strategy q a ha

/-- Whatever shows the tuples of the table, the statement that counts gives the number of the
selected ones. -/
theorem count_of_shows {R : Source} {ts : List (Tuple γ)} {rowOf : Tuple γ → Tuple String}
    (h : R.Shows S.name ts rowOf) (strategy : Strategy) (q : Query) :
    R.count (S.countText strategy q) (S.values strategy q)
      = ((filter strategy q).select ts).map List.length := by
  rw [countText, values, text_condition, condition_eq]
  exact Source.count_eq h S.isName S.columns_ne_nil_of_mem

theorem count_counted (strategy : Strategy) (q : Query) (db : Database) :
    (S.counted db).count (S.countText strategy q) (S.values strategy q)
      = ((filter strategy q).select (table db).tuples).map List.length := by
  obtain ⟨_, hshows⟩ := S.shows_counted db
  exact S.count_of_shows hshows strategy q

/-- The two statements of a search agree on the rows: where pages are read from there are as many
rows to be read as are counted. -/
theorem count_paged (strategy : Strategy) (q : Query) (db : Database) :
    (S.paged db).count (S.countText strategy q) (S.values strategy q)
      = (S.counted db).count (S.countText strategy q) (S.values strategy q) := by
  obtain ⟨_, hshows, _⟩ := S.shows_paged db
  rw [S.count_of_shows hshows, S.count_counted]

/-- The statement for a page reads a slice of the selected tuples. -/
theorem page_paged {strategy : Strategy} {q : Query} {db : Database} {selected : List (Tuple γ)}
    (h : (filter strategy q).select (table db).tuples = .ok selected) :
    (S.paged db).page (S.pageText strategy q) (S.values strategy q ++ pageValues q) S.readNamed
      = (slice q.offset q.limit selected).mapM (readRow db) := by
  obtain ⟨rowOf, hshows, hread⟩ := S.shows_paged db
  rw [pageText, values, text_condition, condition_eq, ← S.rowNumber_paged db]
  refine (Source.page_eq hshows S.isName ?_ S.columns_ne_nil_of_mem h S.readNamed _ _).trans ?_
  · rw [S.rowNumber_paged]
    exact S.isName_rowNumber
  · simp only [hread]
    rfl

/-- A search counts the selected tuples and reads a slice of them. -/
theorem fetch_eq (strategy : Strategy) (q : Query) (db : Database) :
    S.fetch strategy q db = (do
      let selected ← (filter strategy q).select (table db).tuples
      let rows ← (slice q.offset q.limit selected).mapM (readRow db)
      return { rows, total := selected.length }) := by
  unfold fetch
  rw [S.count_counted]
  cases h : (filter strategy q).select (table db).tuples with
  | error e => rfl
  | ok selected =>
    rw [S.page_paged h]
    rfl

end Search

/-- A page has the rows of its slice of the selected tuples, and counts all of them. -/
theorem fetchPage_eq_select {α ρ : Type} [Record α ρ γ] (strategy : Strategy) (q : Query)
    (db : Database) :
    fetchPage α strategy q db = (do
      let selected ← (Record.filter α strategy q).select (Record.table α db).tuples
      let rows ← (slice q.offset q.limit selected).mapM (Record.readRow α db)
      return { rows, total := selected.length }) :=
  (searchOf α).fetch_eq strategy q db

end AlertRegistry
