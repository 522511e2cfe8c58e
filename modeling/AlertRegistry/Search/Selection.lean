import AlertRegistry.Filter.Basic
import AlertRegistry.Search.Source
import AlertRegistry.Text.Pieces
import AlertRegistry.Text.Words

/-!
# Statements that select rows

A statement is given by its source, by the text that follows it, and by the values for the
placeholders of that text. The text has clauses after `WHERE`, with `AND` between them. A clause is
a test of a column, or tests in parentheses with `OR` between them; each test has a placeholder. The
values are taken in the order in which the placeholders are written. It is an error if the text
cannot be read, if it has an unknown name, or if there are fewer or more values than placeholders.

`Source.count` counts the rows that satisfy all clauses. `Source.page` reads a run of them, whose
length and beginning are the last two values. Clauses and tests are tried in their order, until it
is clear whether a row satisfies them; and rows are tried until the run is complete.
-/

namespace AlertRegistry

/-- A test of a column, with a placeholder for a text. -/
inductive ColumnTest where
  /-- The column has the text. -/
  | equals (column : String)
  /-- The column matches the text, which is a pattern. -/
  | like (column : String)
  /-- The column contains the text. -/
  | contains (column : String)
deriving DecidableEq, Repr

namespace ColumnTest

/-- The column that is tested. -/
def column : ColumnTest → String
  | equals c => c
  | like c => c
  | contains c => c

/-- The test that is written in words. -/
def ofWords? : List String → Option ColumnTest
  | [c, "=", "?"] => some (equals c)
  | [c, "LIKE", "?", "ESCAPE", "'", "\\", "'"] => some (like c)
  | ["instr", "(", c, ",", "?", ")", ">", "0"] => some (contains c)
  | _ => none

/-- The row satisfies the test for a text. -/
def holdsFor (row : Tuple String) (s : String) : ColumnTest → Except StoreError Bool
  | equals c => .ok (row c = .text s)
  | like c =>
    if maxPatternSize < s.utf8ByteSize then .error .patternTooLong
    else .ok (Text.matchesPattern s.toList (row c).searchPoints)
  | contains c => .ok ((row c).containsExactly s)

/-- The row satisfies the test for a value, which has to be a text. -/
def holds (row : Tuple String) (test : ColumnTest) : Cell → Except StoreError Bool
  | .text s => test.holdsFor row s
  | _ => .error .datatypeMismatch

end ColumnTest

/-- The tests of clauses: a row has to satisfy one of each. -/
abbrev Clauses := List (List ColumnTest)

namespace Clauses

/-- The tests of the clause that is written in words. -/
def clause? : List String → Option (List ColumnTest)
  | "(" :: ws =>
    if ws.getLast? = some ")" then (Text.pieces "OR" ws.dropLast).mapM ColumnTest.ofWords? else none
  | ws => (ColumnTest.ofWords? ws).map fun test => [test]

/-- The clauses that are written in words. -/
def ofWords? : List String → Option Clauses
  | [] => some []
  | "WHERE" :: ws => (Text.pieces "AND" ws).mapM clause?
  | _ => none

/-- The word stands after the clauses. -/
def isEnd (word : String) : Bool :=
  word == "ORDER" || word == ";"

/-- The clauses at the beginning of a text, and the words after them. -/
def ofText? (text : String) : Option (Clauses × List String) :=
  let ws := Text.words text.toList
  (ofWords? (ws.takeWhile fun w => !isEnd w)).map (·, ws.dropWhile fun w => !isEnd w)

/-- The first column that is not among those that are known. -/
def unknown? (columns : List String) (clauses : Clauses) : Option String :=
  (clauses.flatten.map ColumnTest.column).find? fun c => !columns.contains c

/-- The number of placeholders. -/
def size (clauses : Clauses) : Nat :=
  clauses.flatten.length

/-- The tests with the values that their placeholders get, one after the other. -/
def assign : Clauses → List Cell → List (List (ColumnTest × Cell))
  | [], _ => []
  | tests :: clauses, values =>
    tests.zip values :: assign clauses (values.drop tests.length)

/-- The row satisfies one test of each clause. -/
def holds (row : Tuple String) (clauses : List (List (ColumnTest × Cell))) :
    Except StoreError Bool :=
  clauses.allM fun tests => tests.anyM fun test => test.1.holds row test.2

end Clauses

namespace Source

/-- Fails if a text has an unknown name, or if the values are not as many as they should be. -/
def check (S : Source) (clauses : Clauses) (names : List String) (needed given : Nat) :
    Except StoreError Unit :=
  match clauses.unknown? S.columns <|> names.find? (· ≠ S.rowNumber) with
  | some name => .error (.noColumn name)
  | none => if given = needed then .ok () else .error (.parameterCount given needed)

/-- The number of rows of which `p` holds. -/
def tally (p : Tuple String → Except StoreError Bool) : List (Tuple String) → Except StoreError Nat
  | [] => .ok 0
  | row :: rows => do
    let h ← p row
    let n ← tally p rows
    return if h then n + 1 else n

/-- Reads rows of which `p` holds, at most `limit` of them after the first `offset`. -/
def scan {ρ : Type} (p : Tuple String → Except StoreError Bool)
    (read : Tuple String → Except StoreError ρ) :
    (limit offset : Nat) → List (Tuple String) → Except StoreError (List ρ)
  | 0, _, _ => .ok []
  | _, _, [] => .ok []
  | limit + 1, 0, row :: rows => do
    if ← p row then
      let r ← read row
      let rs ← scan p read limit 0 rows
      return r :: rs
    else scan p read (limit + 1) 0 rows
  | limit + 1, offset + 1, row :: rows => do
    if ← p row then scan p read (limit + 1) offset rows
    else scan p read (limit + 1) (offset + 1) rows

/-- Counts the rows that satisfy clauses. -/
def countWhere (S : Source) (clauses : Clauses) (values : List Cell) : Except StoreError Nat := do
  S.check clauses [] clauses.size values.length
  tally (Clauses.holds · (clauses.assign values)) S.rows

/-- Reads a run of the rows that satisfy clauses, in the order of the named number. A negative limit
is none. -/
def pageWhere {ρ : Type} (S : Source) (clauses : Clauses) (name : String) (values : List Cell)
    (read : Tuple String → Except StoreError ρ) : Except StoreError (List ρ) := do
  S.check clauses [name] (clauses.size + 2) values.length
  match values.drop clauses.size with
  | [.integer limit, .integer offset] =>
    scan (Clauses.holds · (clauses.assign values)) read
      (if limit < 0 then S.rows.length else limit.toNat) offset.toNat S.rows
  | _ => .error .datatypeMismatch

/-- Counts the rows that satisfy the clauses of a text. -/
def count (S : Source) (text : String) (values : List Cell) : Except StoreError Nat :=
  match Clauses.ofText? text with
  | some (clauses, [";"]) => S.countWhere clauses values
  | _ => .error (.syntaxError text)

/-- Reads a run of the rows that satisfy the clauses of a text. -/
def page {ρ : Type} (S : Source) (text : String) (values : List Cell)
    (read : Tuple String → Except StoreError ρ) : Except StoreError (List ρ) :=
  match Clauses.ofText? text with
  | some (clauses, ["ORDER", "BY", name, "ASC", "LIMIT", "?", "OFFSET", "?", ";"]) =>
    S.pageWhere clauses name values read
  | _ => .error (.syntaxError text)

end Source

end AlertRegistry
