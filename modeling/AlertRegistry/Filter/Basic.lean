import AlertRegistry.Filter.Strategy
import AlertRegistry.Store.Error
import AlertRegistry.Text.Bytes
import AlertRegistry.Text.Run
import AlertRegistry.Text.Wildcard

/-!
# Filters

A filter is a list of clauses that a tuple must all satisfy: a column has a given text, or one of
several columns contains a needle. Under the generic strategy containment is a wildcard match, which
sees a text up to its first U+0000 and refuses a pattern that is too long; under the case-sensitive
one it is the infix relation.

Clauses are tried in their order, and the first one that fails ends the trial of a tuple. So a
pattern that is too long is an error only if some tuple satisfies the clauses before it.

A filter can also be written as a condition text with a placeholder for each value (`Filter.text`)
and the list of these values (`Filter.binds`). The text does not depend on the values.
-/

namespace AlertRegistry

/-- The greatest size of a wildcard pattern, in bytes. -/
def maxPatternSize : Nat := 50000

/-- A condition on tuples. -/
inductive Clause (γ : Type) where
  /-- The column has this text. -/
  | equals (column : γ) (value : String)
  /-- One of the columns contains the needle. -/
  | contains (strategy : Strategy) (columns : List γ) (needle : String)
deriving DecidableEq, Repr

/-- The code points that a pattern search sees in a cell. -/
def Cell.searchPoints : Cell → List Nat
  | .text s => Text.searchPoints s.toList
  | .blob bs => Text.searchPointsOfBytes bs
  | .integer n => Text.searchPoints (toString n).toList
  | .null | .real _ => []

/-- The cell contains the needle, character by character. -/
def Cell.containsExactly (needle : String) : Cell → Bool
  | .text s => Text.containsRun needle.toList s.toList
  | .blob bs => Text.containsRun (Text.bytes needle) bs
  | .integer n => Text.containsRun needle.toList (toString n).toList
  | .null | .real _ => false

namespace Clause

variable {γ : Type}

/-- The tuple satisfies the clause. -/
def holds (t : Tuple γ) : Clause γ → Except StoreError Bool
  | equals c value => .ok (t c = .text value)
  | contains .caseSensitive cs needle => .ok (cs.any fun c => (t c).containsExactly needle)
  | contains .generic cs needle =>
    let pattern := Text.containing needle.toList
    if maxPatternSize < (String.ofList pattern).utf8ByteSize then .error .patternTooLong
    else .ok (cs.any fun c => Text.matchesPattern pattern (t c).searchPoints)

/-- The clause as a condition text, where `name` gives the names of the columns. -/
def text (name : γ → String) : Clause γ → String
  | equals c _ => name c ++ " = ?"
  | contains strategy cs _ =>
    let one (c : γ) : String :=
      match strategy with
      | .generic => name c ++ " LIKE ? ESCAPE '\\'"
      | .caseSensitive => "instr(" ++ name c ++ ", ?) > 0"
    "(" ++ " OR ".intercalate (cs.map one) ++ ")"

/-- The values for the placeholders of the condition text. -/
def binds : Clause γ → List String
  | equals _ value => [value]
  | contains .generic cs needle =>
    cs.map fun _ => String.ofList (Text.containing needle.toList)
  | contains .caseSensitive cs needle => cs.map fun _ => needle

end Clause

/-- Clauses that must all hold. -/
abbrev Filter (γ : Type) := List (Clause γ)

namespace Filter

variable {γ : Type}

/-- The filter that asks for a text in a column, if one is given. -/
def equals (column : γ) (value : Option String) : Filter γ :=
  (value.map (Clause.equals column)).toList

/-- The filter that asks for a needle in one of the columns, if one is given. -/
def contains (strategy : Strategy) (columns : List γ) (needle : Option String) : Filter γ :=
  (needle.map (Clause.contains strategy columns)).toList

/-- The tuple satisfies every clause. -/
def holds (t : Tuple γ) : Filter γ → Except StoreError Bool
  | [] => .ok true
  | c :: cs => do
    if ← c.holds t then holds t cs else return false

/-- The tuples that satisfy the filter, in their order. -/
def select (f : Filter γ) : List (Tuple γ) → Except StoreError (List (Tuple γ))
  | [] => .ok []
  | t :: ts => do
    let h ← f.holds t
    let rest ← select f ts
    return if h then t :: rest else rest

/-- The filter as a condition text, empty without clauses. -/
def text (name : γ → String) (f : Filter γ) : String :=
  if f.isEmpty then "" else " WHERE " ++ " AND ".intercalate (f.map (Clause.text name))

/-- The values for the placeholders of the condition text. -/
def binds (f : Filter γ) : List String :=
  f.flatMap Clause.binds

end Filter

end AlertRegistry
