import AlertRegistry.Alert.Tuple
import AlertRegistry.Expression.Tuple
import AlertRegistry.Filter.Condition
import Mathlib.Data.List.Basic

/-!
# Placeholders and their values

A condition and the filter of its criteria are the same clauses (`ofCriteria_eq`), so what is said
of the text and the values is said of the statements of a search (`Search.condition_eq`). Each
clause has as many placeholders as values and asks for its values in the order of its columns
(`Clause.Asks`, `Clause.exists_asks`). Joining texts keeps the order of their placeholders
(`exists_intercalate_eq`), so that the clauses of a condition meet their own values
(`Filter.exists_standsIn`). The main statement is `placeholders_meet_values`.
-/

namespace AlertRegistry

/-- The number of placeholders in a text. -/
def placeholders (s : String) : Nat :=
  s.toList.count '?'

/-- The number of placeholders in all of the texts. -/
def placeholdersOfAll : List String → Nat
  | [] => 0
  | t :: ts => placeholders t + placeholdersOfAll ts

/-- A clause stands in the text after `m` placeholders, and in it after `i` others comes a test with
just one. -/
def StandsIn (text clause test : String) (m i : Nat) : Prop :=
  ∃ lead head tail rest, text = lead ++ clause ++ rest ∧ clause = head ++ test ++ tail
    ∧ placeholders lead = m ∧ placeholders head = i ∧ placeholders test = 1

variable {γ : Type} {name : γ → String}

/-- The clause asks, by the placeholder that comes after `i` others in it, for a value: it is the
value that one of its columns is tested for. -/
inductive Clause.Asks (name : γ → String) : Clause γ → (i : Nat) → (test value : String) → Prop
  /-- The column of an equation asks for the text. -/
  | equals {c value} : Asks name (.equals c value) 0 (name c ++ " = ?") value
  /-- In a generic search each column asks for the needle, escaped and between percent signs. -/
  | like {cs i c needle} (column : cs[i]? = some c) :
    Asks name (.contains .generic cs needle) i (name c ++ " LIKE ? ESCAPE '\\'")
      ("%" ++ String.ofList (Text.escapeNeedle needle.toList) ++ "%")
  /-- In an exact search each column asks for the needle as it is. -/
  | instr {cs i c needle} (column : cs[i]? = some c) :
    Asks name (.contains .caseSensitive cs needle) i ("instr(" ++ name c ++ ", ?) > 0") needle

/-- The columns of a clause. -/
def Clause.columns : Clause γ → List γ
  | equals c _ => [c]
  | contains _ cs _ => cs

namespace Criterion

/-- The criterion with an empty text in place of the one that is given. -/
def masked : Criterion γ → Criterion γ
  | equals c value => equals c (value.map fun _ => "")
  | contains strategy cs needle => contains strategy cs (needle.map fun _ => "")

theorem columns_of_mem_filter {a : Criterion γ} {k : Clause γ} (h : k ∈ a.filter) :
    k.columns = a.columns := by
  cases a with
  | equals c value =>
    cases value with
    | none => cases h
    | some v => rw [List.mem_singleton.1 h]; rfl
  | contains strategy cs needle =>
    cases needle with
    | none => cases h
    | some n => rw [List.mem_singleton.1 h]; rfl

/-- What a criterion is written as does not depend on its text. -/
theorem map_text_filter_masked (a : Criterion γ) :
    a.masked.filter.map (Clause.text name) = a.filter.map (Clause.text name) := by
  cases a with
  | equals c value => cases value <;> rfl
  | contains strategy cs needle => cases needle <;> rfl

end Criterion

/-! ## Placeholders of joined texts -/

@[simp] theorem placeholders_append (s t : String) :
    placeholders (s ++ t) = placeholders s + placeholders t := by
  simp [placeholders]

theorem placeholders_intercalate {sep : String} (hsep : placeholders sep = 0) (ts : List String) :
    placeholders (sep.intercalate ts) = placeholdersOfAll ts := by
  induction ts with
  | nil => rfl
  | cons t ts ih =>
    rw [placeholdersOfAll, ← ih]
    cases ts with
    | nil => rw [String.intercalate_singleton]; rfl
    | cons u ts => simp [String.intercalate_cons_cons, hsep]

/-- Before a text among others that are joined stand the placeholders of those before it. -/
theorem exists_intercalate_eq (sep : String) (hsep : placeholders sep = 0)
    (before after : List String) (t : String) :
    ∃ lead rest, sep.intercalate (before ++ t :: after) = lead ++ t ++ rest
      ∧ placeholders lead = placeholdersOfAll before := by
  induction before with
  | nil =>
    cases after with
    | nil => exact ⟨"", "", by simp, rfl⟩
    | cons u after =>
      exact ⟨"", sep ++ sep.intercalate (u :: after),
        by simp [String.intercalate_cons_cons, String.append_assoc], rfl⟩
  | cons b before ih =>
    obtain ⟨lead, rest, heq, hlead⟩ := ih
    refine ⟨b ++ sep ++ lead, rest, ?_, ?_⟩
    · rw [List.cons_append, String.intercalate_cons_of_ne_nil (by simp), heq]
      simp only [String.append_assoc]
    · simp [placeholdersOfAll, hsep, hlead]

/-! ## Clauses -/

namespace Condition

/-- The test of a column has one placeholder. -/
theorem placeholders_test {strategy : Strategy} {needle column : String}
    (h : placeholders column = 0) : placeholders (test strategy needle column).1 = 1 := by
  cases strategy with
  | generic =>
    show placeholders (column ++ " LIKE ? ESCAPE '\\'") = 1
    rw [placeholders_append, h]
    decide
  | caseSensitive =>
    show placeholders ("instr(" ++ column ++ ", ?) > 0") = 1
    rw [placeholders_append, placeholders_append, h]
    decide

theorem placeholdersOfAll_tests {strategy : Strategy} {needle : String} {cs : List γ}
    (h : ∀ c ∈ cs, placeholders (name c) = 0) :
    placeholdersOfAll (cs.map fun c => (test strategy needle (name c)).1) = cs.length := by
  induction cs with
  | nil => rfl
  | cons c cs ih =>
    rw [List.forall_mem_cons] at h
    rw [List.map_cons, placeholdersOfAll, placeholders_test h.1, ih h.2, List.length_cons,
      Nat.add_comm]

end Condition

namespace Clause

theorem text_contains (strategy : Strategy) (cs : List γ) (needle : String) :
    (contains strategy cs needle).text name
      = "(" ++ " OR ".intercalate (cs.map fun c => (Condition.test strategy needle (name c)).1)
        ++ ")" := by
  cases strategy <;> rfl

theorem binds_contains (name : γ → String) (strategy : Strategy) (cs : List γ) (needle : String) :
    (contains strategy cs needle).binds
      = cs.map fun c => (Condition.test strategy needle (name c)).2 := by
  cases strategy <;> rfl

theorem asks_contains {strategy : Strategy} {cs : List γ} {needle : String} {i : Nat} {c : γ}
    (h : cs[i]? = some c) :
    (contains strategy cs needle).Asks name i (Condition.test strategy needle (name c)).1
      (Condition.test strategy needle (name c)).2 := by
  cases strategy with
  | generic =>
    have hpattern : String.ofList (Text.containing needle.toList)
        = "%" ++ String.ofList (Text.escapeNeedle needle.toList) ++ "%" := by
      rw [← String.toList_inj]
      simp [Text.containing]
    show Asks name _ i _ (String.ofList (Text.containing needle.toList))
    rw [hpattern]
    exact .like h
  | caseSensitive => exact .instr h

/-- A clause has one placeholder for each of its values. -/
theorem placeholders_text {k : Clause γ} (h : ∀ c ∈ k.columns, placeholders (name c) = 0) :
    placeholders (k.text name) = k.binds.length := by
  cases k with
  | equals c value =>
    show placeholders (name c ++ " = ?") = 1
    rw [placeholders_append, h c (List.mem_singleton.2 rfl)]
    decide
  | contains strategy cs needle =>
    replace h : ∀ c ∈ cs, placeholders (name c) = 0 := h
    rw [text_contains, binds_contains name, List.length_map, placeholders_append,
      placeholders_append, placeholders_intercalate (by decide),
      Condition.placeholdersOfAll_tests h]
    exact Nat.zero_add _

/-- For each of its values a clause asks by a placeholder of its own. -/
theorem exists_asks {k : Clause γ} (h : ∀ c ∈ k.columns, placeholders (name c) = 0) {i : Nat}
    {value : String} (hvalue : k.binds[i]? = some value) :
    ∃ test head tail, k.Asks name i test value ∧ k.text name = head ++ test ++ tail
      ∧ placeholders head = i ∧ placeholders test = 1 := by
  cases k with
  | equals c v =>
    obtain ⟨rfl, rfl⟩ : i = 0 ∧ v = value := by
      cases i <;> simp [binds] at hvalue
      exact ⟨rfl, hvalue⟩
    refine ⟨name c ++ " = ?", "", "", .equals, by simp [text], rfl, ?_⟩
    rw [placeholders_append, h c (List.mem_singleton.2 rfl)]
    decide
  | contains strategy cs needle =>
    rw [binds_contains name, List.getElem?_map, Option.map_eq_some_iff] at hvalue
    obtain ⟨c, hc, rfl⟩ := hvalue
    obtain ⟨hi, hget⟩ := List.getElem?_eq_some_iff.1 hc
    have hsplit : cs = cs.take i ++ c :: cs.drop (i + 1) := by
      rw [← hget, ← List.drop_eq_getElem_cons hi, List.take_append_drop]
    let tests (cs : List γ) := cs.map fun c => (Condition.test strategy needle (name c)).1
    obtain ⟨lead, rest, hjoined, hlead⟩ := exists_intercalate_eq " OR " (by decide)
      (tests (cs.take i)) (tests (cs.drop (i + 1))) (Condition.test strategy needle (name c)).1
    refine ⟨_, "(" ++ lead, rest ++ ")", asks_contains hc, ?_, ?_,
      Condition.placeholders_test (h c (List.mem_of_getElem? hc))⟩
    · rw [text_contains]
      conv_lhs => rw [hsplit, List.map_append, List.map_cons, hjoined]
      simp only [String.append_assoc]
    · -- the columns before this one have one placeholder each
      have hbefore : ∀ c ∈ cs.take i, placeholders (name c) = 0 := fun c hc =>
        h c (List.mem_of_mem_take hc)
      rw [placeholders_append, hlead, Condition.placeholdersOfAll_tests hbefore,
        List.length_take_of_le (Nat.le_of_lt hi)]
      exact Nat.zero_add i

end Clause

/-! ## Filters and conditions -/

/-- An item of a joined list is an item of one of its parts. -/
theorem exists_append_of_getElem?_flatMap {α β : Type} {f : α → List β} {l : List α} {k : Nat}
    {b : β} (h : (l.flatMap f)[k]? = some b) :
    ∃ before a after i, l = before ++ a :: after ∧ (before.flatMap f).length + i = k
      ∧ (f a)[i]? = some b := by
  induction l generalizing k with
  | nil => cases h
  | cons x l ih =>
    rw [List.flatMap_cons] at h
    by_cases hk : k < (f x).length
    · rw [List.getElem?_append_left hk] at h
      exact ⟨[], x, l, k, rfl, Nat.zero_add k, h⟩
    · rw [List.getElem?_append_right (Nat.le_of_not_lt hk)] at h
      obtain ⟨before, a, after, i, rfl, hi, ha⟩ := ih h
      refine ⟨x :: before, a, after, i, rfl, ?_, ha⟩
      rw [List.flatMap_cons, List.length_append]
      omega

namespace Filter

variable {f : Filter γ}

theorem placeholdersOfAll_texts (h : ∀ k ∈ f, ∀ c ∈ k.columns, placeholders (name c) = 0) :
    placeholdersOfAll (f.map (Clause.text name)) = (binds f).length := by
  induction f with
  | nil => rfl
  | cons k f ih =>
    rw [List.forall_mem_cons] at h
    rw [List.map_cons, placeholdersOfAll, Clause.placeholders_text h.1, ih h.2, binds, binds,
      List.flatMap_cons, List.length_append]

/-- A filter has one placeholder for each of its values. -/
theorem placeholders_text (h : ∀ k ∈ f, ∀ c ∈ k.columns, placeholders (name c) = 0) :
    placeholders (text name f) = (binds f).length := by
  unfold text
  split
  · next hempty =>
    rw [List.isEmpty_iff.1 hempty]
    rfl
  · rw [placeholders_append, placeholders_intercalate (by decide), placeholdersOfAll_texts h]
    exact Nat.zero_add _

/-- Each value of a filter is asked for, in its place, by one of the clauses. -/
theorem exists_standsIn (h : ∀ k ∈ f, ∀ c ∈ k.columns, placeholders (name c) = 0) {k : Nat}
    {value : String} (hvalue : (binds f)[k]? = some value) :
    ∃ before clause after i test, f = before ++ clause :: after
      ∧ (binds before).length + i = k ∧ clause.Asks name i test value
      ∧ StandsIn (text name f) (clause.text name) test (binds before).length i := by
  obtain ⟨before, clause, after, i, rfl, rfl, hclause⟩ := exists_append_of_getElem?_flatMap hvalue
  obtain ⟨test, head, tail, hasks, htext, hhead, htest⟩ :=
    Clause.exists_asks (h clause (by simp)) hclause
  obtain ⟨lead, rest, hjoined, hlead⟩ := exists_intercalate_eq " AND " (by decide)
    (before.map (Clause.text name)) (after.map (Clause.text name)) (clause.text name)
  refine ⟨before, clause, after, i, test, rfl, rfl, hasks, " WHERE " ++ lead, head, tail, rest, ?_,
    htext, ?_, hhead, htest⟩
  · rw [text, if_neg (by simp), List.map_append, List.map_cons, hjoined]
    simp only [String.append_assoc]
  · -- the clauses before this one have one placeholder for each of their values
    have hbefore : ∀ k ∈ before, ∀ c ∈ k.columns, placeholders (name c) = 0 := fun k hk =>
      h k (List.mem_append_left _ hk)
    rw [placeholders_append, hlead, placeholdersOfAll_texts hbefore]
    exact Nat.zero_add _

end Filter

namespace Condition

theorem tests_eq (strategy : Strategy) (needle : String) (binds columns : List String) :
    tests strategy needle binds columns
      = (columns.map fun c => (test strategy needle c).1,
        binds ++ columns.map fun c => (test strategy needle c).2) := by
  induction columns generalizing binds with
  | nil => simp [tests]
  | cons c columns ih => simp [tests, ih]

/-- A criterion adds the clauses of its filter and their values. -/
theorem add_eq (k : Condition) (a : Criterion γ) :
    k.add name a = { clauses := k.clauses ++ a.filter.map (Clause.text name)
                     binds := k.binds ++ Filter.binds a.filter } := by
  cases a with
  | equals c value =>
    cases value with
    | none => simp [add, addEquals, Criterion.filter, Filter.equals, Filter.binds]
    | some v => rfl
  | contains strategy cs needle =>
    cases needle with
    | none => simp [add, addContains, Criterion.filter, Filter.contains, Filter.binds]
    | some n =>
      have hfilter : (Criterion.contains strategy cs (some n)).filter
          = [Clause.contains strategy cs n] := rfl
      rw [hfilter, add, addContains, tests_eq, List.map_map, List.map_map, List.map_singleton,
        Clause.text_contains, Filter.binds, List.flatMap_singleton, Clause.binds_contains name]
      rfl

/-- Criteria make the clauses of their filter and the values of these. -/
theorem ofCriteria_eq (l : List (Criterion γ)) :
    ofCriteria name l = { clauses := (l.flatMap Criterion.filter).map (Clause.text name)
                          binds := Filter.binds (l.flatMap Criterion.filter) } := by
  have hfold (k : Condition) :
      l.foldl (add name) k
        = { clauses := k.clauses ++ (l.flatMap Criterion.filter).map (Clause.text name)
            binds := k.binds ++ Filter.binds (l.flatMap Criterion.filter) } := by
    induction l generalizing k with
    | nil => simp [Filter.binds]
    | cons a l ih =>
      rw [List.foldl_cons, ih, add_eq]
      simp [Filter.binds]
  exact hfold {}

theorem text_ofCriteria (l : List (Criterion γ)) :
    (ofCriteria name l).text = Filter.text name (l.flatMap Criterion.filter) := by
  rw [ofCriteria_eq, text, Filter.text, List.isEmpty_map]

example : (ofCriteria id [.equals "cluster" (some "c1"), .equals "service" none,
      .contains .caseSensitive ["name", "metric"] (some "cpu")]).text
    = " WHERE cluster = ? AND (instr(name, ?) > 0 OR instr(metric, ?) > 0)" := by decide

/-- The text of a condition does not depend on the texts that are asked for. -/
theorem text_ofCriteria_congr {l l' : List (Criterion γ)}
    (h : l'.map Criterion.masked = l.map Criterion.masked) :
    (ofCriteria name l').text = (ofCriteria name l).text := by
  have hmasked (l : List (Criterion γ)) :
      ((l.map Criterion.masked).flatMap Criterion.filter).map (Clause.text name)
        = (l.flatMap Criterion.filter).map (Clause.text name) := by
    rw [List.flatMap_map, List.map_flatMap, List.map_flatMap]
    exact List.flatMap_congr fun a _ => a.map_text_filter_masked
  have hclauses : (ofCriteria name l').clauses = (ofCriteria name l).clauses := by
    rw [ofCriteria_eq, ofCriteria_eq, ← hmasked l', h, hmasked l]
  rw [text, text, hclauses]

end Condition

/-! ## The conditions of searches -/

namespace Search

variable {ρ : Type} {table : Database → Table γ}
  {readRow : Database → Tuple γ → Except StoreError ρ} {filter : Strategy → Query → Filter γ}
  (S : Search table readRow filter)

/-- The condition of a search is made of the clauses of its filter. -/
theorem condition_eq (strategy : Strategy) (q : Query) :
    S.condition strategy q = { clauses := (filter strategy q).map (Clause.text S.name)
                               binds := Filter.binds (filter strategy q) } := by
  rw [condition, Condition.ofCriteria_eq, S.filter_eq]

theorem text_condition (strategy : Strategy) (q : Query) :
    (S.condition strategy q).text = Filter.text S.name (filter strategy q) := by
  rw [condition, Condition.text_ofCriteria, S.filter_eq]

end Search

/-! ## Placeholders meet their values -/

/-- A condition has as many placeholders as values, the `k`-th placeholder stands in a clause of the
filter, in the test of the column that asks for the `k`-th value, and criteria that differ only in
their texts have the same condition text. -/
theorem placeholders_meet_values {l : List (Criterion γ)}
    (h : ∀ a ∈ l, ∀ c ∈ a.columns, '?' ∉ (name c).toList) :
    placeholders (Condition.ofCriteria name l).text = (Condition.ofCriteria name l).binds.length
      ∧ (∀ k < placeholders (Condition.ofCriteria name l).text,
          ∃ before clause after i test value, l.flatMap Criterion.filter = before ++ clause :: after
            ∧ (Filter.binds before).length + i = k ∧ clause.Asks name i test value
            ∧ StandsIn (Condition.ofCriteria name l).text (clause.text name) test
                (Filter.binds before).length i
            ∧ (Condition.ofCriteria name l).binds[k]? = some value)
      ∧ ∀ l' : List (Criterion γ), l'.map Criterion.masked = l.map Criterion.masked →
          (Condition.ofCriteria name l').text = (Condition.ofCriteria name l).text := by
  have hnames : ∀ k ∈ l.flatMap Criterion.filter, ∀ c ∈ k.columns, placeholders (name c) = 0 := by
    intro k hk c hc
    obtain ⟨a, ha, hka⟩ := List.mem_flatMap.1 hk
    rw [Criterion.columns_of_mem_filter hka] at hc
    exact List.count_eq_zero.2 (h a ha c hc)
  have hbinds : (Condition.ofCriteria name l).binds
      = Filter.binds (l.flatMap Criterion.filter) := by
    rw [Condition.ofCriteria_eq]
  have hcount := Filter.placeholders_text hnames
  rw [Condition.text_ofCriteria, hbinds]
  refine ⟨hcount, fun k hk => ?_, fun l' hl => ?_⟩
  · rw [hcount] at hk
    obtain ⟨before, clause, after, i, test, heq, hi, hasks, hstands⟩ :=
      Filter.exists_standsIn hnames (List.getElem?_eq_getElem hk)
    exact ⟨before, clause, after, i, test, _, heq, hi, hasks, hstands,
      List.getElem?_eq_getElem hk⟩
  · rw [← Condition.text_ofCriteria]
    exact Condition.text_ofCriteria_congr hl

/-- The criteria of a search with question marks. -/
def doubtfulCriteria : List (Criterion AlertColumn) :=
  AlertRow.criteria .generic { cluster := some "c?", needle := some "50%?" }

/-- A question mark that is looked for is no placeholder, and the condition is that of any other
search in a cluster. -/
theorem question_mark_is_no_placeholder :
    (∀ a ∈ doubtfulCriteria, ∀ c ∈ a.columns, '?' ∉ (AlertRow.qualifiedName c).toList)
      ∧ placeholders (Condition.ofCriteria AlertRow.qualifiedName doubtfulCriteria).text = 5
      ∧ (Condition.ofCriteria AlertRow.qualifiedName doubtfulCriteria).binds
          = ["c?", "%50\\%?%", "%50\\%?%", "%50\\%?%", "%50\\%?%"]
      ∧ (Condition.ofCriteria AlertRow.qualifiedName
            (AlertRow.criteria .generic { cluster := some "d", needle := some "" })).text
          = (Condition.ofCriteria AlertRow.qualifiedName doubtfulCriteria).text := by
  have hnames : ∀ a ∈ doubtfulCriteria, ∀ c ∈ a.columns,
      '?' ∉ (AlertRow.qualifiedName c).toList := by decide
  obtain ⟨hcount, -, hsame⟩ := placeholders_meet_values hnames
  exact ⟨hnames, hcount.trans (by decide), by decide, hsame _ (by decide)⟩

end AlertRegistry
