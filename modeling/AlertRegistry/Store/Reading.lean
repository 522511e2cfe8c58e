import AlertRegistry.Database.Layout
import AlertRegistry.Store.Error

/-!
# Reading cells

Cells are read with a type in mind. A cell of another type is an error that names the column of the
result and its index; null is only read where a value may be absent.
-/

namespace AlertRegistry

namespace Cell

/-- The error that the cell is not of the type that is read from the column. -/
def columnError (c : Cell) (index : Nat) (column : String) : StoreError :=
  .columnType c.typeName index column

/-- The text in a cell. -/
def readText (c : Cell) (index : Nat) (column : String) : Except StoreError String :=
  match c with
  | text s => .ok s
  | _ => .error (c.columnError index column)

/-- The integer in a cell. -/
def readInteger (c : Cell) (index : Nat) (column : String) : Except StoreError Int :=
  match c with
  | integer n => .ok n
  | _ => .error (c.columnError index column)

/-- The text in a cell, if it is not null. -/
def readText? (c : Cell) (index : Nat) (column : String) : Except StoreError (Option String) :=
  match c with
  | null => .ok none
  | _ => (c.readText index column).map some

/-- The integer in a cell, if it is not null. -/
def readInteger? (c : Cell) (index : Nat) (column : String) : Except StoreError (Option Int) :=
  match c with
  | null => .ok none
  | _ => (c.readInteger index column).map some

end Cell

namespace Tuple

variable {γ : Type} [Layout γ]

/-- The text in a column of a tuple that is read with all its columns in their order. -/
def readText (t : Tuple γ) (c : γ) : Except StoreError String :=
  (t c).readText ((Layout.columns : List γ).idxOf c) (Layout.name c)

/-- The integer in a column of a tuple that is read with all its columns in their order. -/
def readInteger (t : Tuple γ) (c : γ) : Except StoreError Int :=
  (t c).readInteger ((Layout.columns : List γ).idxOf c) (Layout.name c)

end Tuple

end AlertRegistry
