import AlertRegistry.Table.Cell

/-!
# Tables

A table keeps tuples in the order in which they were inserted; a tuple maps columns to cells. Its
`Layout` says how the columns are called, what they hold, which one is the key, and which conditions
a tuple must meet. A tuple is admitted if no required cell is null and every check passes, and the
keys of the tuples in a table are distinct.

A table can be told to reject changes of one sort with a message; a rejected change does not get as
far as the admission of the tuple. `insert`, `put`, `update` and `delete` act on the whole table or
fail and leave it alone. References between tables are not their business.
-/

namespace AlertRegistry

/-- A tuple: a cell in each column. -/
abbrev Tuple (γ : Type) := γ → Cell

/-- A condition on tuples. -/
structure Check (γ : Type) where
  /-- The condition as it is named in an error. -/
  text : String
  /-- The tuple meets the condition. -/
  passes : Tuple γ → Bool

/-- How the columns of a table are laid out. -/
class Layout (γ : Type) extends BEq γ where
  /-- The name of the table. -/
  table : String
  /-- The columns in their order. -/
  columns : List γ
  /-- The name of a column. -/
  name : γ → String
  /-- What a column is meant to hold. -/
  affinity : γ → Affinity
  /-- The column must not be null. -/
  required : γ → Bool
  /-- The key. -/
  key : γ
  /-- The cell of a column for which no value is given. -/
  default : γ → Cell
  /-- The conditions on a tuple, in the order in which they are checked. -/
  checks : List (Check γ)

/-- The sorts of changes. -/
inductive Change where
  /-- A new tuple. -/
  | insert
  /-- New cells for a tuple. -/
  | update
  /-- The end of a tuple. -/
  | delete
deriving DecidableEq, Repr

/-- Why a change of a table fails. -/
inductive ChangeError where
  /-- Changes of this sort are rejected, with a message. -/
  | rejected (message : String)
  /-- A required cell is null. -/
  | missing (table column : String)
  /-- A check does not pass. -/
  | check (text : String)
  /-- The key is taken. -/
  | duplicate (table column : String)
  /-- A reference leads nowhere. -/
  | reference
deriving DecidableEq, Repr

/-- The wording of the error. -/
def ChangeError.message : ChangeError → String
  | rejected message => message
  | missing table column => "NOT NULL constraint failed: " ++ table ++ "." ++ column
  | check text => "CHECK constraint failed: " ++ text
  | duplicate table column => "UNIQUE constraint failed: " ++ table ++ "." ++ column
  | reference => "FOREIGN KEY constraint failed"

/-- The tuples of a table, and the changes that it rejects. -/
structure Table (γ : Type) where
  /-- The tuples in the order of their insertion. -/
  tuples : List (Tuple γ) := []
  /-- The message with which changes of a sort are rejected. -/
  rejection : Change → Option String := fun _ => none

variable {γ : Type}

/-- The tuple with a cell replaced. -/
def Tuple.set [BEq γ] (t : Tuple γ) (column : γ) (c : Cell) : Tuple γ :=
  fun d => if d == column then c else t d

namespace Table

variable [Layout γ]

/-- The key of a tuple. -/
def keyOf (t : Tuple γ) : Cell := t Layout.key

/-- The tuple as the columns keep it. -/
def convert (t : Tuple γ) : Tuple γ :=
  fun c => (Layout.affinity c).convert (t c)

/-- The converted tuple, if no required cell is null and every check passes. -/
def accept (t : Tuple γ) : Except ChangeError (Tuple γ) :=
  let t := convert t
  match (Layout.columns : List γ).find? fun c => Layout.required c && t c = .null with
  | some c => .error (.missing (Layout.table γ) (Layout.name c))
  | none =>
    match (Layout.checks : List (Check γ)).find? fun k => !k.passes t with
    | some k => .error (.check k.text)
    | none => .ok t

/-- The error that the key is taken. -/
def duplicateKey (γ : Type) [Layout γ] : ChangeError :=
  .duplicate (Layout.table γ) (Layout.name (Layout.key : γ))

/-- Some of the tuples has the key. -/
def hasKey (key : Cell) (ts : List (Tuple γ)) : Bool :=
  ts.any fun t => keyOf t = key

/-- The tuple with the key. -/
def find? (T : Table γ) (key : Cell) : Option (Tuple γ) :=
  T.tuples.find? fun t => keyOf t = key

/-- Fails if changes of the sort are rejected. -/
def permit (T : Table γ) (change : Change) : Except ChangeError Unit :=
  match T.rejection change with
  | some message => .error (.rejected message)
  | none => .ok ()

/-- Appends a tuple. -/
def insert (T : Table γ) (t : Tuple γ) : Except ChangeError (Table γ) := do
  T.permit .insert
  let t ← accept t
  if hasKey (keyOf t) T.tuples then throw (duplicateKey γ)
  return { T with tuples := T.tuples ++ [t] }

/-- Changes the selected tuples among `rest` one after the other, where `before` are the tuples
in front of them, already changed. -/
def updateFrom (T : Table γ) (select : Tuple γ → Bool) (f : Tuple γ → Tuple γ)
    (before : List (Tuple γ)) : List (Tuple γ) → Except ChangeError (List (Tuple γ))
  | [] => .ok before
  | t :: rest => do
    if select t then
      T.permit .update
      let t ← accept (f t)
      if hasKey (keyOf t) before || hasKey (keyOf t) rest then throw (duplicateKey γ)
      updateFrom T select f (before ++ [t]) rest
    else updateFrom T select f (before ++ [t]) rest

/-- Changes the selected tuples, each in its place. -/
def update (T : Table γ) (select : Tuple γ → Bool) (f : Tuple γ → Tuple γ) :
    Except ChangeError (Table γ) := do
  return { T with tuples := ← T.updateFrom select f [] T.tuples }

/-- Puts a tuple in the place of the one with its key, or else appends it. -/
def put (T : Table γ) (t : Tuple γ) : Except ChangeError (Table γ) := do
  T.permit .insert
  let t ← accept t
  if hasKey (keyOf t) T.tuples then T.update (fun u => keyOf u = keyOf t) fun _ => t
  else return { T with tuples := T.tuples ++ [t] }

/-- Removes the selected tuples. -/
def delete (T : Table γ) (select : Tuple γ → Bool) : Except ChangeError (Table γ) := do
  if T.tuples.any select then T.permit .delete
  return { T with tuples := T.tuples.filter fun t => !select t }

/-- The number of selected tuples. -/
def count (T : Table γ) (select : Tuple γ → Bool) : Nat :=
  T.tuples.countP select

/-- Rejects changes of a sort from now on, or no longer. -/
def setRejection (T : Table γ) (change : Change) (message : Option String) : Table γ :=
  { T with rejection := fun c => if c = change then message else T.rejection c }

end Table

end AlertRegistry
