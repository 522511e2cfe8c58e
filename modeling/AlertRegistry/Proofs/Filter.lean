import AlertRegistry.Proofs.Reading
import Mathlib.Data.List.Infix

/-!
# What a query asks for

A clause holds of a tuple (`Clause.Holds`) if the column has the text, or if one of the columns
contains the needle as a run (`Cell.Contains`). A filter without generic clauses never fails: it
selects the tuples of which all clauses hold, in their order (`Filter.select_of_exact`). Any other
one does so if it can be evaluated (`Filter.eq_filter_of_select`).

Alerts and expressions that a query wants are described once by their tuples (`Wanted`) and once by
their rows (`Matches`). The clauses made from the query say the former (`AlertRow.forall_filter`,
`ExpressionRow.forall_filter`), and of a tuple that is read as a row both say the same
(`AlertRow.wanted_iff_matches`, `ExpressionRow.wanted_iff_matches`). Every row contains the empty
needle (`AlertRow.matches_empty_needle`, `ExpressionRow.matches_empty_needle`).
-/

namespace AlertRegistry

/-! ## Clauses -/

/-- The needle is a run of what the cell holds: of the characters of a text, of the bytes of a byte
string, or of the decimals of an integer. -/
def Cell.Contains (needle : String) : Cell → Prop
  | .text s => needle.toList <:+: s.toList
  | .blob bs => Text.bytes needle <:+: bs
  | .integer n => needle.toList <:+: (toString n).toList
  | .null | .real _ => False

theorem Cell.containsExactly_iff {needle : String} {c : Cell} :
    c.containsExactly needle = true ↔ c.Contains needle := by
  cases c with
  | text s => exact Text.containsRun_iff
  | blob bs => exact Text.containsRun_iff
  | integer n => exact Text.containsRun_iff
  | null => exact Bool.false_eq_true.to_iff
  | real x => exact Bool.false_eq_true.to_iff

instance (needle : String) : DecidablePred (Cell.Contains needle) := fun _ =>
  decidable_of_iff _ Cell.containsExactly_iff

variable {γ : Type}

namespace Clause

/-- What a clause says, if needles are taken as they are. -/
def Holds (t : Tuple γ) : Clause γ → Prop
  | equals c value => t c = .text value
  | contains _ cs needle => ∃ c ∈ cs, (t c).Contains needle

instance (t : Tuple γ) : DecidablePred (Holds t)
  | equals c value => inferInstanceAs (Decidable (t c = .text value))
  | contains _ cs needle => inferInstanceAs (Decidable (∃ c ∈ cs, (t c).Contains needle))

/-- The clause takes its needle as it is. -/
def IsExact : Clause γ → Prop
  | equals .. => True
  | contains strategy .. => strategy = .caseSensitive

theorem holds_of_exact {k : Clause γ} (h : k.IsExact) (t : Tuple γ) :
    k.holds t = .ok (decide (k.Holds t)) := by
  cases k with
  | equals c value => rfl
  | contains strategy cs needle =>
    cases h
    refine congrArg Except.ok (Bool.eq_iff_iff.2 ?_)
    rw [List.any_eq_true, decide_eq_true_iff]
    simp only [Cell.containsExactly_iff]
    exact Iff.rfl

end Clause

namespace Filter

theorem holds_of_exact {f : Filter γ} (h : ∀ k ∈ f, k.IsExact) (t : Tuple γ) :
    f.holds t = .ok (decide (∀ k ∈ f, k.Holds t)) := by
  induction f with
  | nil => simp [holds]
  | cons k f ih =>
    rw [List.forall_mem_cons] at h
    unfold holds
    rw [Clause.holds_of_exact h.1, ih h.2]
    simp only [List.forall_mem_cons]
    by_cases hk : k.Holds t
    · simp [hk, bind, Except.bind]
    · simp [hk, bind, Except.bind, pure, Except.pure]

/-- The tuples of which all clauses hold are selected. -/
theorem select_of_exact {f : Filter γ} (h : ∀ k ∈ f, k.IsExact) (ts : List (Tuple γ)) :
    f.select ts = .ok (ts.filter fun t => ∀ k ∈ f, k.Holds t) := by
  induction ts with
  | nil => rfl
  | cons t ts ih =>
    unfold select
    rw [holds_of_exact h, ih, List.filter_cons]
    rfl

/-- Whatever the clauses, the tuples that satisfy them are selected if they can be evaluated. -/
theorem eq_filter_of_select {f : Filter γ} {ts selected : List (Tuple γ)}
    (h : f.select ts = .ok selected) :
    selected = ts.filter fun t => (f.holds t).toOption = some true := by
  induction ts generalizing selected with
  | nil =>
    cases h
    rfl
  | cons t ts ih =>
    unfold select at h
    obtain ⟨holds, hholds, h⟩ := bind_eq_ok h
    obtain ⟨rest, hrest, h⟩ := bind_eq_ok h
    cases h
    rw [List.filter_cons, hholds, ← ih hrest]
    cases holds <;> rfl

/-- A filter that can be evaluated on all tuples selects some. -/
theorem exists_select_iff {f : Filter γ} {ts : List (Tuple γ)} :
    (∃ selected, f.select ts = .ok selected) ↔ ∀ t ∈ ts, ∃ b, f.holds t = .ok b := by
  induction ts with
  | nil => exact iff_of_true ⟨[], rfl⟩ (List.forall_mem_nil _)
  | cons t ts ih =>
    rw [List.forall_mem_cons, ← ih]
    constructor
    · rintro ⟨selected, h⟩
      unfold select at h
      obtain ⟨holds, hholds, h⟩ := bind_eq_ok h
      obtain ⟨rest, hrest, _⟩ := bind_eq_ok h
      exact ⟨⟨holds, hholds⟩, rest, hrest⟩
    · rintro ⟨⟨holds, hholds⟩, rest, hrest⟩
      refine ⟨if holds then t :: rest else rest, ?_⟩
      unfold select
      rw [hholds, hrest]
      rfl

/-- Exact clauses come first: of a tuple for which they do not hold nothing else is asked. -/
theorem holds_append_of_exact {f : Filter γ} (h : ∀ k ∈ f, k.IsExact) (g : Filter γ)
    (t : Tuple γ) :
    holds t (f ++ g) = if ∀ k ∈ f, k.Holds t then holds t g else .ok false := by
  induction f with
  | nil => simp
  | cons k f ih =>
    rw [List.forall_mem_cons] at h
    rw [List.cons_append]
    conv_lhs => unfold holds
    rw [Clause.holds_of_exact h.1, ih h.2]
    by_cases hk : k.Holds t
    · simp [hk, bind, Except.bind]
    · simp [hk, bind, Except.bind, pure, Except.pure]

theorem forall_mem_equals {t : Tuple γ} {c : γ} {value : Option String} :
    (∀ k ∈ equals c value, k.Holds t) ↔ ∀ s ∈ value, t c = .text s := by
  cases value <;> simp [equals, Clause.Holds]

theorem forall_mem_contains {t : Tuple γ} {strategy : Strategy} {cs : List γ}
    {needle : Option String} :
    (∀ k ∈ contains strategy cs needle, k.Holds t)
      ↔ ∀ n ∈ needle, ∃ c ∈ cs, (t c).Contains n := by
  cases needle <;> simp [contains, Clause.Holds]

theorem isExact_equals (c : γ) (value : Option String) : ∀ k ∈ equals c value, k.IsExact := by
  cases value <;> simp [equals, Clause.IsExact]

theorem isExact_contains (cs : List γ) (needle : Option String) :
    ∀ k ∈ contains .caseSensitive cs needle, k.IsExact := by
  cases needle <;> simp [contains, Clause.IsExact]

end Filter

/-! ## Alerts -/

namespace AlertRow

/-- The query wants the alert in the tuple. -/
@[mk_iff]
structure Wanted (q : Query) (t : Tuple AlertColumn) : Prop where
  /-- It is in the cluster, if one is given. -/
  cluster : ∀ s ∈ q.cluster, t .cluster = .text s
  /-- It is about the service, if one is given. -/
  service : ∀ s ∈ q.service, t .service = .text s
  /-- It is evaluated in the context, if one is given. -/
  context : ∀ c ∈ q.context, t .context = .text c.name
  /-- One of its searched columns contains the needle, if one is given. -/
  needle : ∀ n ∈ q.needle,
    ∃ c ∈ [AlertColumn.name, .cluster, .service, .metric], (t c).Contains n

/-- The query wants the row. -/
@[mk_iff]
structure Matches (q : Query) (r : AlertRow) : Prop where
  /-- It is in the cluster, if one is given. -/
  cluster : ∀ s ∈ q.cluster, r.cluster = s
  /-- It is about the service, if one is given. -/
  service : ∀ s ∈ q.service, r.service = s
  /-- It is evaluated in the context, if one is given. -/
  context : ∀ c ∈ q.context, r.context = c.name
  /-- One of its searched texts contains the needle, if one is given. -/
  needle : ∀ n ∈ q.needle,
    ∃ s ∈ [r.name, r.cluster, r.service, r.metric], n.toList <:+: s.toList

instance (q : Query) : DecidablePred (Wanted q) := fun t =>
  decidable_of_iff _ (wanted_iff q t).symm

instance (q : Query) : DecidablePred (Matches q) := fun r =>
  decidable_of_iff _ (matches_iff q r).symm

/-- The clauses of a query say which tuples it wants. -/
theorem forall_filter {strategy : Strategy} {q : Query} {t : Tuple AlertColumn} :
    (∀ k ∈ filter strategy q, k.Holds t) ↔ Wanted q t := by
  -- a context is asked for by its name
  have hcontext : (∀ s ∈ q.context.map Context.name, t .context = .text s)
      ↔ ∀ c ∈ q.context, t .context = .text c.name := by
    cases q.context <;> simp
  unfold filter
  simp only [List.forall_mem_append, Filter.forall_mem_equals, Filter.forall_mem_contains,
    wanted_iff, and_assoc, hcontext]

theorem isExact_filter (q : Query) : ∀ k ∈ filter .caseSensitive q, k.IsExact := by
  unfold filter
  simp only [List.forall_mem_append]
  exact ⟨⟨⟨Filter.isExact_equals _ _, Filter.isExact_equals _ _⟩, Filter.isExact_equals _ _⟩,
    Filter.isExact_contains _ _⟩

/-- The exact search selects the tuples that the query wants. -/
theorem select_filter (q : Query) (ts : List (Tuple AlertColumn)) :
    (filter .caseSensitive q).select ts = .ok (ts.filter (Wanted q)) := by
  rw [Filter.select_of_exact (isExact_filter q)]
  simp only [forall_filter]

/-- A query wants a tuple if it wants the row that the tuple is read as. -/
theorem wanted_iff_matches {q : Query} {t : Tuple AlertColumn} {r : AlertRow} (h : TextsOf t r) :
    Wanted q t ↔ Matches q r := by
  rw [wanted_iff, matches_iff]
  simp only [List.exists_mem_cons_iff, h.name, h.cluster, h.service, h.context, h.metric,
    Cell.text.injEq, Cell.Contains, List.not_mem_nil, false_and, exists_false]

/-- Every row contains the empty needle. -/
theorem matches_empty_needle (q : Query) (r : AlertRow) :
    Matches { q with needle := some "" } r ↔ Matches { q with needle := none } r := by
  constructor
  · rintro ⟨hcluster, hservice, hcontext, -⟩
    exact ⟨hcluster, hservice, hcontext, fun n hn => by cases hn⟩
  · rintro ⟨hcluster, hservice, hcontext, -⟩
    refine ⟨hcluster, hservice, hcontext, fun n hn => ?_⟩
    cases hn
    exact ⟨r.name, List.mem_cons_self, List.nil_infix⟩

end AlertRow

/-! ## Expressions -/

namespace ExpressionRow

/-- The query wants the expression in the tuple. It does not look at a context. -/
@[mk_iff]
structure Wanted (q : Query) (t : Tuple ExpressionColumn) : Prop where
  /-- It is in the cluster, if one is given. -/
  cluster : ∀ s ∈ q.cluster, t .cluster = .text s
  /-- It is about the service, if one is given. -/
  service : ∀ s ∈ q.service, t .service = .text s
  /-- One of its searched columns contains the needle, if one is given. -/
  needle : ∀ n ∈ q.needle,
    ∃ c ∈ [ExpressionColumn.cluster, .service, .metric], (t c).Contains n

/-- The query wants the row. -/
@[mk_iff]
structure Matches (q : Query) (r : ExpressionRow) : Prop where
  /-- It is in the cluster, if one is given. -/
  cluster : ∀ s ∈ q.cluster, r.cluster = s
  /-- It is about the service, if one is given. -/
  service : ∀ s ∈ q.service, r.service = s
  /-- One of its searched texts contains the needle, if one is given. -/
  needle : ∀ n ∈ q.needle, ∃ s ∈ [r.cluster, r.service, r.metric], n.toList <:+: s.toList

instance (q : Query) : DecidablePred (Wanted q) := fun t =>
  decidable_of_iff _ (wanted_iff q t).symm

instance (q : Query) : DecidablePred (Matches q) := fun r =>
  decidable_of_iff _ (matches_iff q r).symm

/-- The clauses of a query say which tuples it wants. -/
theorem forall_filter {strategy : Strategy} {q : Query} {t : Tuple ExpressionColumn} :
    (∀ k ∈ filter strategy q, k.Holds t) ↔ Wanted q t := by
  unfold filter
  simp only [List.forall_mem_append, Filter.forall_mem_equals, Filter.forall_mem_contains,
    wanted_iff, and_assoc]

theorem isExact_filter (q : Query) : ∀ k ∈ filter .caseSensitive q, k.IsExact := by
  unfold filter
  simp only [List.forall_mem_append]
  exact ⟨⟨Filter.isExact_equals _ _, Filter.isExact_equals _ _⟩, Filter.isExact_contains _ _⟩

/-- The exact search selects the tuples that the query wants. -/
theorem select_filter (q : Query) (ts : List (Tuple ExpressionColumn)) :
    (filter .caseSensitive q).select ts = .ok (ts.filter (Wanted q)) := by
  rw [Filter.select_of_exact (isExact_filter q)]
  simp only [forall_filter]

/-- A query wants a tuple if it wants the row that the tuple is read as. -/
theorem wanted_iff_matches {q : Query} {t : Tuple ExpressionColumn} {r : ExpressionRow}
    (h : TextsOf t r) : Wanted q t ↔ Matches q r := by
  rw [wanted_iff, matches_iff]
  simp only [List.exists_mem_cons_iff, h.cluster, h.service, h.metric, Cell.text.injEq,
    Cell.Contains, List.not_mem_nil, false_and, exists_false]

/-- Every row contains the empty needle. -/
theorem matches_empty_needle (q : Query) (r : ExpressionRow) :
    Matches { q with needle := some "" } r ↔ Matches { q with needle := none } r := by
  constructor
  · rintro ⟨hcluster, hservice, -⟩
    exact ⟨hcluster, hservice, fun n hn => by cases hn⟩
  · rintro ⟨hcluster, hservice, -⟩
    refine ⟨hcluster, hservice, fun n hn => ?_⟩
    cases hn
    exact ⟨r.cluster, List.mem_cons_self, List.nil_infix⟩

end ExpressionRow

end AlertRegistry
