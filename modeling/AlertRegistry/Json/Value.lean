import AlertRegistry.Json.Tree

/-!
# JSON values

A `Value` is what a JSON text means once everything in it is read. Numbers are 64-bit integers or
doubles; a double is never infinite or a NaN when it comes from a text. The members of an object are
in the order of their keys by code point, one member a key; where a text repeats a key, the last
member counts. At most 127 arrays and objects may be open at once.
-/

namespace AlertRegistry.Json

/-- A JSON value. -/
inductive Value where
  /-- The null value. -/
  | null
  /-- A truth value. -/
  | bool (b : Bool)
  /-- An integer, between the least signed and the greatest unsigned one of 64 bits. -/
  | integer (n : Int)
  /-- A number that is not such an integer. -/
  | number (x : Float)
  /-- A text. -/
  | text (s : String)
  /-- An array. -/
  | array (items : List Value)
  /-- An object with its members in the order of their keys. -/
  | object (members : List (String × Value))

/-- The greatest number of arrays and objects that may be open at once. -/
def maxDepth : Nat := 127

/-- Puts a member into a list of members in the order of their keys, in place of one with its key.
-/
def insertMember {α : Type} (key : String) (a : α) : List (String × α) → List (String × α)
  | [] => [(key, a)]
  | (k, b) :: ms =>
    if key < k then (key, a) :: (k, b) :: ms
    else if key = k then (key, a) :: ms
    else (k, b) :: insertMember key a ms

namespace Tree

mutual

/-- The value of a tree, where `depth` more arrays and objects may be opened. -/
def value? (depth : Nat) : Tree → Option Value
  | .null => some .null
  | .bool b => some (.bool b)
  | .numeral n =>
    match n.integer? with
    | some k => some (.integer k)
    | none => n.float?.map .number
  | .string ps => (Piece.join ps).map fun cs => .text (String.ofList cs)
  | .array items =>
    match depth with
    | 0 => none
    | depth + 1 => (values? depth items).map .array
  | .object ms =>
    match depth with
    | 0 => none
    | depth + 1 => (members? depth ms).map .object

/-- The values of the items of an array. -/
def values? (depth : Nat) : List Tree → Option (List Value)
  | [] => some []
  | t :: ts => do
    let v ← value? depth t
    let vs ← values? depth ts
    return v :: vs

/-- The members of an object, read from the last to the first: one that is repeated later is
dropped, but it must be readable all the same. -/
def members? (depth : Nat) : List (List Piece × Tree) → Option (List (String × Value))
  | [] => some []
  | (k, t) :: ms => do
    let key ← Piece.join k
    let v ← value? depth t
    let rest ← members? depth ms
    let key := String.ofList key
    return if rest.any (fun m => m.1 = key) then rest else insertMember key v rest

end

/-- The members of an object where `depth` arrays and objects may be opened, itself included. -/
def object? (depth : Nat) : Tree → Option (List (String × Value))
  | .object ms =>
    match depth with
    | 0 => none
    | depth + 1 => members? depth ms
  | _ => none

end Tree

end AlertRegistry.Json
