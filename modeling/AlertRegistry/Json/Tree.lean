import AlertRegistry.Json.Token

/-!
# The structure of a JSON text

A `Tree` is a JSON text with its nesting resolved and nothing else decided: numerals are unread,
strings are in pieces, and an object lists its members as they are written, repeated keys included.
A reader that skips a member does not look into it, so the faults that only show when a value is
read (a number out of range, half a surrogate pair, too deep a nesting) stay in the tree.

`Tree.ofTokens?` builds the tree in one pass over the tokens: `State` says what may come next inside
the open arrays and objects.
-/

namespace AlertRegistry.Json

/-- A JSON text with its nesting resolved. -/
inductive Tree where
  /-- The literal `null`. -/
  | null
  /-- The literal `true` or `false`. -/
  | bool (b : Bool)
  /-- A number as it is written. -/
  | numeral (n : Decimal.Numeral)
  /-- A string in pieces. -/
  | string (ps : List Piece)
  /-- An array. -/
  | array (items : List Tree)
  /-- An object with its members in the order of the text. -/
  | object (members : List (List Piece × Tree))

namespace Tree

/-- An array or object that is not yet closed. The parts already read are in reverse order. -/
inductive Frame where
  /-- An array. -/
  | array (items : List Tree)
  /-- An object, with the key of the member that is being read. -/
  | object (members : List (List Piece × Tree)) (key : List Piece)

/-- What may come next. -/
inductive State where
  /-- A value. -/
  | value (frames : List Frame)
  /-- The first item of an array, or its end. -/
  | firstItem (frames : List Frame)
  /-- The first key of an object, or its end. -/
  | firstKey (frames : List Frame)
  /-- A further key of an object. -/
  | key (members : List (List Piece × Tree)) (frames : List Frame)
  /-- The colon after a key. -/
  | colon (members : List (List Piece × Tree)) (key : List Piece) (frames : List Frame)
  /-- What may follow a complete value: a comma or the end of what encloses it. -/
  | after (t : Tree) (frames : List Frame)

/-- The state after the first token of a value. -/
def stepValue (frames : List Frame) : Token → Option State
  | .null => some (.after .null frames)
  | .bool b => some (.after (.bool b) frames)
  | .numeral n => some (.after (.numeral n) frames)
  | .string ps => some (.after (.string ps) frames)
  | .openArray => some (.firstItem frames)
  | .openObject => some (.firstKey frames)
  | _ => none

/-- The state after a token, or `none` if the token may not stand there. -/
def step : State → Token → Option State
  | .value fs, t => stepValue fs t
  | .firstItem fs, .closeArray => some (.after (.array []) fs)
  | .firstItem fs, t => stepValue (.array [] :: fs) t
  | .firstKey fs, .closeObject => some (.after (.object []) fs)
  | .firstKey fs, .string ps => some (.colon [] ps fs)
  | .key ms fs, .string ps => some (.colon ms ps fs)
  | .colon ms k fs, .colon => some (.value (.object ms k :: fs))
  | .after t (.array items :: fs), .comma => some (.value (.array (t :: items) :: fs))
  | .after t (.array items :: fs), .closeArray => some (.after (.array (t :: items).reverse) fs)
  | .after t (.object ms k :: fs), .comma => some (.key ((k, t) :: ms) fs)
  | .after t (.object ms k :: fs), .closeObject =>
    some (.after (.object ((k, t) :: ms).reverse) fs)
  | _, _ => none

/-- The tree of a sequence of tokens. -/
def ofTokens? (ts : List Token) : Option Tree :=
  match ts.foldlM step (.value []) with
  | some (.after t []) => some t
  | _ => none

/-- The tree of a JSON text. -/
def ofString? (s : String) : Option Tree :=
  (Token.ofChars? s.toList).bind ofTokens?

/-! ## Records

A record is read from an object, by the names of its fields, or from an array, by their order. A
member with an unknown name is skipped, a field that occurs twice is an error, and so is an array
with more items than fields.
-/

/-- The text of a string, if the tree is one. -/
def text? : Tree → Option String
  | string ps => (Piece.join ps).map String.ofList
  | _ => none

/-- Puts the members of an object under the field names. -/
def placeMembers (names : List String) :
    List (List Piece × Tree) → List (Option Tree) → Option (List (Option Tree))
  | [], slots => some slots
  | (k, t) :: ms, slots => do
    let name ← (Piece.join k).map String.ofList
    match names.idxOf? name with
    | none => placeMembers names ms slots
    | some i =>
      match slots[i]? with
      | some none => placeMembers names ms (slots.set i (some t))
      | _ => none

/-- The fields of a record in the order of the names, `none` for each that is missing. -/
def fields? (names : List String) : Tree → Option (List (Option Tree))
  | object ms => placeMembers names ms (names.map fun _ => none)
  | array items =>
    if items.length ≤ names.length then
      some (items.map some ++ List.replicate (names.length - items.length) none)
    else none
  | _ => none

/-- The name of a case without data: the name itself, or an object with the name as its only key and
`null` as its value. -/
def caseName? : Tree → Option String
  | string ps => (Piece.join ps).map String.ofList
  | object [(k, null)] => (Piece.join k).map String.ofList
  | _ => none

/-- A natural number below a bound. -/
def natBelow? (bound : Nat) : Tree → Option Nat
  | numeral n =>
    match n.integer? with
    | some (Int.ofNat k) => if k < bound then some k else none
    | _ => none
  | _ => none

/-- A number as a double; an integer is rounded to the nearest one. -/
def float? : Tree → Option Float
  | numeral n =>
    match n.integer? with
    | some k => some (Float.ofInt k)
    | none => n.float?
  | _ => none

end Tree

end AlertRegistry.Json
