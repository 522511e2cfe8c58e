import AlertRegistry.Filter.Basic

/-!
# Conditions under construction

A search has criteria for the texts of columns; a criterion without a text is open and asks for
nothing. The condition text of a search and the values for its placeholders are made side by side,
criterion by criterion: `Condition.add` appends the text of one clause and, as it goes through the
columns, one value for each placeholder in it. What the text means for tuples is the filter of the
criteria (`Criterion.filter`).
-/

namespace AlertRegistry

/-- A criterion for the texts of columns. -/
inductive Criterion (γ : Type) where
  /-- The column has this text, if one is given. -/
  | equals (column : γ) (value : Option String)
  /-- One of the columns contains the needle, if one is given. -/
  | contains (strategy : Strategy) (columns : List γ) (needle : Option String)
deriving DecidableEq, Repr

/-- The filter that a criterion asks for. -/
def Criterion.filter {γ : Type} : Criterion γ → Filter γ
  | equals c value => Filter.equals c value
  | contains strategy cs needle => Filter.contains strategy cs needle

/-- The columns of a criterion. -/
def Criterion.columns {γ : Type} : Criterion γ → List γ
  | equals c _ => [c]
  | contains _ cs _ => cs

/-- A condition under construction. -/
structure Condition where
  /-- The texts of its clauses. -/
  clauses : List String := []
  /-- The values for the placeholders. -/
  binds : List String := []
deriving DecidableEq, Repr

namespace Condition

/-- Asks for a text in a column, if one is given. -/
def addEquals (k : Condition) (column : String) (value : Option String) : Condition :=
  match value with
  | none => k
  | some v => { clauses := k.clauses ++ [column ++ " = ?"], binds := k.binds ++ [v] }

/-- The test whether a column contains a needle, and the value for its placeholder. -/
def test (strategy : Strategy) (needle column : String) : String × String :=
  match strategy with
  | .generic => (column ++ " LIKE ? ESCAPE '\\'", String.ofList (Text.containing needle.toList))
  | .caseSensitive => ("instr(" ++ column ++ ", ?) > 0", needle)

/-- The tests of columns one after the other, and the values that were there with theirs. -/
def tests (strategy : Strategy) (needle : String) :
    List String → List String → List String × List String
  | binds, [] => ([], binds)
  | binds, column :: columns =>
    let (one, value) := test strategy needle column
    let (others, binds) := tests strategy needle (binds ++ [value]) columns
    (one :: others, binds)

/-- Asks for a needle in one of the columns, if one is given. -/
def addContains (k : Condition) (strategy : Strategy) (columns : List String)
    (needle : Option String) : Condition :=
  match needle with
  | none => k
  | some needle =>
    let (alternatives, binds) := tests strategy needle k.binds columns
    { clauses := k.clauses ++ ["(" ++ " OR ".intercalate alternatives ++ ")"], binds }

/-- Adds a criterion; `name` gives the names of the columns. -/
def add {γ : Type} (name : γ → String) (k : Condition) : Criterion γ → Condition
  | .equals c value => k.addEquals (name c) value
  | .contains strategy cs needle => k.addContains strategy (cs.map name) needle

/-- The condition of criteria in their order. -/
def ofCriteria {γ : Type} (name : γ → String) (l : List (Criterion γ)) : Condition :=
  l.foldl (add name) {}

/-- The condition as a text, empty without clauses. -/
def text (k : Condition) : String :=
  if k.clauses.isEmpty then "" else " WHERE " ++ " AND ".intercalate k.clauses

end Condition

end AlertRegistry
