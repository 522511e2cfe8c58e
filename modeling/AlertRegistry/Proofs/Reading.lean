import AlertRegistry.Alert.Tuple
import AlertRegistry.Expression.Tuple
import Mathlib.Data.List.Forall2

/-!
# What was read

A reading that succeeds tells what was there: each of its steps succeeded (`bind_eq_ok`), each
member of a list that was read became the member of the result in its place (`mapM_eq_ok_iff`), and
a tuple that was read as a row is the tuple of that row (`AlertRow.eq_tuple_of_read`,
`ExpressionRow.eq_tuple_of_ofTuple`). One that fails tells where: at the first step or member that
could not be read (`bind_eq_error`, `mapM_eq_error_iff`).
-/

namespace AlertRegistry

/-! ## Steps and lists -/

section

variable {ε α β δ : Type}

theorem bind_eq_ok {x : Except ε β} {f : β → Except ε δ} {d : δ} (h : (x >>= f) = .ok d) :
    ∃ b, x = .ok b ∧ f b = .ok d := by
  cases x with
  | error e => cases h
  | ok b => exact ⟨b, rfl, h⟩

theorem bind_eq_error {x : Except ε β} {f : β → Except ε δ} {err : ε} (h : (x >>= f) = .error err) :
    x = .error err ∨ ∃ b, x = .ok b ∧ f b = .error err := by
  cases x with
  | error e =>
    cases h
    exact .inl rfl
  | ok b => exact .inr ⟨b, rfl, h⟩

theorem map_eq_ok {x : Except ε β} {f : β → δ} {d : δ} (h : x.map f = .ok d) :
    ∃ b, x = .ok b ∧ f b = d := by
  cases x with
  | error e => cases h
  | ok b =>
    cases h
    exact ⟨b, rfl, rfl⟩

theorem map_eq_error {x : Except ε β} {f : β → δ} {e : ε} (h : x.map f = .error e) :
    x = .error e := by
  cases x with
  | error e' =>
    cases h
    rfl
  | ok b => cases h

theorem toOption_eq_some_iff {x : Except ε β} {b : β} : x.toOption = some b ↔ x = .ok b := by
  cases x with
  | error e => exact iff_of_false nofun nofun
  | ok b' =>
    show some b' = some b ↔ _
    rw [Option.some.injEq, Except.ok.injEq]

theorem mapM_eq_ok_iff {f : α → Except ε β} {as : List α} {bs : List β} :
    as.mapM f = .ok bs ↔ List.Forall₂ (fun a b => f a = .ok b) as bs := by
  constructor
  · intro h
    induction as generalizing bs with
    | nil =>
      cases h
      exact .nil
    | cons a as ih =>
      rw [List.mapM_cons] at h
      obtain ⟨b, hb, h⟩ := bind_eq_ok h
      obtain ⟨bs', hbs, h⟩ := bind_eq_ok h
      cases h
      exact .cons hb (ih hbs)
  · intro h
    induction h with
    | nil => rfl
    | cons hb _ ih =>
      rw [List.mapM_cons, hb, ih]
      rfl

/-- A list can be read if each of its members can. -/
theorem exists_mapM_iff {f : α → Except ε β} {as : List α} :
    (∃ bs, as.mapM f = .ok bs) ↔ ∀ a ∈ as, ∃ b, f a = .ok b := by
  induction as with
  | nil => exact iff_of_true ⟨[], rfl⟩ (List.forall_mem_nil _)
  | cons a as ih =>
    rw [List.forall_mem_cons, ← ih, List.mapM_cons]
    constructor
    · rintro ⟨bs, h⟩
      obtain ⟨b, hb, h⟩ := bind_eq_ok h
      obtain ⟨bs', hbs, _⟩ := bind_eq_ok h
      exact ⟨⟨b, hb⟩, bs', hbs⟩
    · rintro ⟨⟨b, hb⟩, bs, hbs⟩
      rw [hb, hbs]
      exact ⟨b :: bs, rfl⟩

/-- What was read are the members of the list as they are read one by one. -/
theorem mem_of_mapM {f : α → Except ε β} {as : List α} {bs : List β} (h : as.mapM f = .ok bs)
    {b : β} : b ∈ bs ↔ ∃ a ∈ as, f a = .ok b := by
  rw [mapM_eq_ok_iff] at h
  induction h with
  | nil => simp
  | cons hb _ ih =>
    rw [List.mem_cons, ih, List.exists_mem_cons_iff, hb, Except.ok.injEq, eq_comm]

/-- The error of a list that cannot be read is that of its first member that cannot. -/
theorem mapM_eq_error_iff {f : α → Except ε β} {as : List α} {err : ε} :
    as.mapM f = .error err ↔ ∃ before a after, as = before ++ a :: after
      ∧ (∀ b ∈ before, ∃ c, f b = .ok c) ∧ f a = .error err := by
  induction as with
  | nil =>
    refine iff_of_false nofun ?_
    rintro ⟨before, a, after, hnil, -⟩
    exact absurd hnil.symm (List.append_ne_nil_of_right_ne_nil _ (List.cons_ne_nil _ _))
  | cons a as ih =>
    rw [List.mapM_cons]
    constructor
    · intro h
      rcases bind_eq_error h with ha | ⟨b, hb, h⟩
      · exact ⟨[], a, as, rfl, List.forall_mem_nil _, ha⟩
      · have hrest : as.mapM f = .error err := (bind_eq_error h).resolve_right nofun
        obtain ⟨before, a', after, rfl, hbefore, ha'⟩ := ih.1 hrest
        exact ⟨a :: before, a', after, rfl, List.forall_mem_cons.2 ⟨⟨b, hb⟩, hbefore⟩, ha'⟩
    · rintro ⟨before, a', after, heq, hbefore, ha'⟩
      cases before with
      | nil =>
        obtain ⟨rfl, -⟩ := List.cons.inj heq
        rw [ha']
        rfl
      | cons b before =>
        obtain ⟨rfl, rfl⟩ := List.cons.inj heq
        obtain ⟨⟨c, hc⟩, hbefore⟩ := List.forall_mem_cons.1 hbefore
        rw [hc, ih.2 ⟨before, a', after, rfl, hbefore, ha'⟩]
        rfl

/-- To read lists one after the other is to read them as one list. -/
theorem mapM_flatMap (f : β → Except ε δ) (g : α → List β) (as : List α) :
    (as.flatMap g).mapM f = (as.mapM fun a => (g a).mapM f).map List.flatten := by
  induction as with
  | nil => rfl
  | cons a as ih =>
    rw [List.flatMap_cons, List.mapM_append, List.mapM_cons, ih]
    cases (g a).mapM f with
    | error e => rfl
    | ok ds => cases (as.mapM fun a => (g a).mapM f) <;> rfl

end

/-! ## Cells and tuples -/

theorem Cell.readText_eq_ok {c : Cell} {index : Nat} {column s : String}
    (h : c.readText index column = .ok s) : c = .text s := by
  cases c with
  | text s' =>
    cases h
    rfl
  | _ => cases h

theorem Tuple.readText_eq_ok {γ : Type} [Layout γ] {t : Tuple γ} {c : γ} {s : String}
    (h : t.readText c = .ok s) : t c = .text s :=
  Cell.readText_eq_ok h

theorem Cell.readInteger_eq_ok {c : Cell} {index : Nat} {column : String} {n : Int}
    (h : c.readInteger index column = .ok n) : c = .integer n := by
  cases c with
  | integer m =>
    cases h
    rfl
  | _ => cases h

theorem Tuple.readInteger_eq_ok {γ : Type} [Layout γ] {t : Tuple γ} {c : γ} {n : Int}
    (h : t.readInteger c = .ok n) : t c = .integer n :=
  Cell.readInteger_eq_ok h

/-- What was read as a row is the tuple of that row. -/
theorem AlertRow.eq_tuple_of_read {db : Database} {t : Tuple AlertColumn} {r : AlertRow}
    (h : AlertRow.read db t = .ok r) :
    t = r.tuple (.integer r.version) (.integer r.createdAt) (.integer r.updatedAt) := by
  unfold AlertRow.read AlertRow.ofTuple at h
  extract_lets readColumns at h
  -- the columns are read in one way, whatever the side-record is
  obtain ⟨side, h⟩ : ∃ side, readColumns side = .ok r := by
    split at h
    · exact ⟨none, h⟩
    · obtain ⟨side, -, h⟩ := bind_eq_ok h
      exact ⟨side, h⟩
  obtain ⟨id, hid, h⟩ := bind_eq_ok h
  obtain ⟨version, hversion, h⟩ := bind_eq_ok h
  obtain ⟨createdAt, hcreatedAt, h⟩ := bind_eq_ok h
  obtain ⟨updatedAt, hupdatedAt, h⟩ := bind_eq_ok h
  obtain ⟨name, hname, h⟩ := bind_eq_ok h
  obtain ⟨cluster, hcluster, h⟩ := bind_eq_ok h
  obtain ⟨service, hservice, h⟩ := bind_eq_ok h
  obtain ⟨context, hcontext, h⟩ := bind_eq_ok h
  obtain ⟨metric, hmetric, h⟩ := bind_eq_ok h
  obtain ⟨statistic, hstatistic, h⟩ := bind_eq_ok h
  obtain ⟨period, hperiod, h⟩ := bind_eq_ok h
  obtain ⟨operator, hoperator, h⟩ := bind_eq_ok h
  obtain ⟨quantity, hquantity, h⟩ := bind_eq_ok h
  cases h
  funext column
  cases column with
  | id => exact Tuple.readText_eq_ok hid
  | version => exact Tuple.readInteger_eq_ok hversion
  | createdAt => exact Tuple.readInteger_eq_ok hcreatedAt
  | updatedAt => exact Tuple.readInteger_eq_ok hupdatedAt
  | name => exact Tuple.readText_eq_ok hname
  | cluster => exact Tuple.readText_eq_ok hcluster
  | service => exact Tuple.readText_eq_ok hservice
  | context => exact Tuple.readText_eq_ok hcontext
  | metric => exact Tuple.readText_eq_ok hmetric
  | statistic => exact Tuple.readText_eq_ok hstatistic
  | period => exact Tuple.readText_eq_ok hperiod
  | operator => exact Tuple.readText_eq_ok hoperator
  | quantity => exact Tuple.readText_eq_ok hquantity

/-- What was read as a row is the tuple of that row. -/
theorem ExpressionRow.eq_tuple_of_ofTuple {t : Tuple ExpressionColumn} {r : ExpressionRow}
    (h : ExpressionRow.ofTuple t = .ok r) :
    t = r.tuple (.integer r.version) (.integer r.createdAt) (.integer r.updatedAt) := by
  unfold ExpressionRow.ofTuple at h
  obtain ⟨id, hid, h⟩ := bind_eq_ok h
  obtain ⟨version, hversion, h⟩ := bind_eq_ok h
  obtain ⟨createdAt, hcreatedAt, h⟩ := bind_eq_ok h
  obtain ⟨updatedAt, hupdatedAt, h⟩ := bind_eq_ok h
  obtain ⟨cluster, hcluster, h⟩ := bind_eq_ok h
  obtain ⟨service, hservice, h⟩ := bind_eq_ok h
  obtain ⟨metric, hmetric, h⟩ := bind_eq_ok h
  obtain ⟨script, hscript, h⟩ := bind_eq_ok h
  cases h
  funext column
  cases column with
  | id => exact Tuple.readText_eq_ok hid
  | version => exact Tuple.readInteger_eq_ok hversion
  | createdAt => exact Tuple.readInteger_eq_ok hcreatedAt
  | updatedAt => exact Tuple.readInteger_eq_ok hupdatedAt
  | cluster => exact Tuple.readText_eq_ok hcluster
  | service => exact Tuple.readText_eq_ok hservice
  | metric => exact Tuple.readText_eq_ok hmetric
  | script => exact Tuple.readText_eq_ok hscript

/-- The row has the texts in the columns of the tuple that can be asked for. -/
structure AlertRow.TextsOf (t : Tuple AlertColumn) (r : AlertRow) : Prop where
  /-- The name. -/
  name : t .name = .text r.name
  /-- The cluster. -/
  cluster : t .cluster = .text r.cluster
  /-- The service. -/
  service : t .service = .text r.service
  /-- The name of the context. -/
  context : t .context = .text r.context
  /-- The metric. -/
  metric : t .metric = .text r.metric

theorem AlertRow.textsOf_read {db : Database} {t : Tuple AlertColumn} {r : AlertRow}
    (h : AlertRow.read db t = .ok r) : TextsOf t r := by
  rw [eq_tuple_of_read h]
  exact ⟨rfl, rfl, rfl, rfl, rfl⟩

/-- The row has the texts in the columns of the tuple that can be asked for. -/
structure ExpressionRow.TextsOf (t : Tuple ExpressionColumn) (r : ExpressionRow) : Prop where
  /-- The cluster. -/
  cluster : t .cluster = .text r.cluster
  /-- The service. -/
  service : t .service = .text r.service
  /-- The metric. -/
  metric : t .metric = .text r.metric

theorem ExpressionRow.textsOf_ofTuple {t : Tuple ExpressionColumn} {r : ExpressionRow}
    (h : ExpressionRow.ofTuple t = .ok r) : TextsOf t r := by
  rw [eq_tuple_of_ofTuple h]
  exact ⟨rfl, rfl, rfl⟩

end AlertRegistry
