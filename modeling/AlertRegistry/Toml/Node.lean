import AlertRegistry.Toml.Value

/-!
# Tables under construction

A TOML document builds its tables piece by piece: by headers, by dotted keys, and by values. A
`Node` remembers how it came about, because that decides what may still be added to it. A finished
value and a table that was written out stay as they are, as far as dotted keys are concerned; a
table that only came about because a longer key runs through it can be extended in the same manner
or, if it stems from a header, be given a header of its own. An array of tables is extended at its
last element.
-/

namespace AlertRegistry.Toml

/-- How a table came about. -/
inductive Origin where
  /-- It has a header of its own, or it is the document, or an inline table. -/
  | explicit
  /-- The header of a table inside it was read. -/
  | header
  /-- A dotted key runs through it. -/
  | dotted
deriving DecidableEq, Repr

/-- A part of a document under construction. -/
inductive Node where
  /-- A finished value. -/
  | leaf (v : Value)
  /-- A table. -/
  | table (origin : Origin) (members : List (String × Node))
  /-- An array of tables, in reverse order. -/
  | tables (elements : List (List (String × Node)))

/-- The members of a table under construction. -/
abbrev Members := List (String × Node)

namespace Members

/-- Puts a node under a key, in the place of the one that is there or else at the end. -/
def put (key : String) (n : Node) : Members → Members
  | [] => [(key, n)]
  | (k, m) :: ms => if k = key then (key, n) :: ms else (k, m) :: put key n ms

/-- Changes the table that a path leads to and makes the tables on the way that do not exist. A
dotted key must not run through a table that was written out. -/
def descend (dotted : Bool) (f : Origin → Members → Option Members) :
    List String → Origin → Members → Option Members
  | [], origin, ms => f origin ms
  | key :: path, _, ms =>
    match ms.lookup key with
    | none => do
      let origin := if dotted then Origin.dotted else .header
      let inner ← descend dotted f path origin []
      return put key (.table origin inner) ms
    | some (.leaf _) => none
    | some (.table origin inner) => do
      if dotted ∧ origin = .explicit then none
      else return put key (.table origin (← descend dotted f path origin inner)) ms
    | some (.tables []) => none
    | some (.tables (last :: others)) => do
      let last ← descend dotted f path .explicit last
      return put key (.tables (last :: others)) ms

/-- Adds a value under a dotted key. -/
def addValue (path : List String) (key : String) (v : Value) (origin : Origin) (ms : Members) :
    Option Members :=
  let add (origin : Origin) (ms : Members) : Option Members :=
    if origin = .dotted ↔ path.isEmpty then none
    else if (ms.lookup key).isSome then none
    else some (put key (.leaf v) ms)
  descend true add path origin ms

/-- Adds a table for a header. -/
def addTable (path : List String) (key : String) (ms : Members) : Option Members :=
  let add (_ : Origin) (ms : Members) : Option Members :=
    match ms.lookup key with
    | none => some (put key (.table .explicit []) ms)
    | some (.table .header inner) => some (put key (.table .explicit inner) ms)
    | some _ => none
  descend false add path .explicit ms

/-- Adds an element to an array of tables for a header. -/
def addElement (path : List String) (key : String) (ms : Members) : Option Members :=
  let add (_ : Origin) (ms : Members) : Option Members :=
    match ms.lookup key with
    | none => some (put key (.tables [[]]) ms)
    | some (.tables elements) => some (put key (.tables ([] :: elements)) ms)
    | some _ => none
  descend false add path .explicit ms

end Members

namespace Node

mutual

/-- The finished value. -/
def value : Node → Value
  | leaf v => v
  | table _ ms => .table (values ms)
  | tables es => .array (elements es).reverse

/-- The finished members of a table. -/
def values : List (String × Node) → List (String × Value)
  | [] => []
  | (key, n) :: ms => (key, value n) :: values ms

/-- The finished tables of an array. -/
def elements : List (List (String × Node)) → List Value
  | [] => []
  | e :: es => .table (values e) :: elements es

end

end Node

end AlertRegistry.Toml
