import AlertRegistry.Toml.Moment
import AlertRegistry.Toml.Node
import AlertRegistry.Toml.Number
import AlertRegistry.Toml.Text

/-!
# TOML documents

A document is a sequence of lines: key and value, the header of a table, the header of an element of
an array of tables, or nothing. Keys may be dotted, and each part may be bare or a string on one
line. `readDocument?` reads version 1.0 of the format. Arrays and inline tables may be nested, and
keys may be dotted, less than `depthLimit` times.

A reader takes characters off the front and returns what is left. Arrays and inline tables are read
with fuel, one unit for each step into a value or past one; the length of the text is enough.
-/

namespace AlertRegistry.Toml

/-- The depth of nesting that is refused. -/
def depthLimit : Nat := 80

/-- A character of a bare key. -/
def isBare (c : Char) : Bool :=
  c.isAlphanum ∨ c = '-' ∨ c = '_'

/-- Reads one part of a key. -/
def readKeyPart : List Char → Option (String × List Char)
  | [] => none
  | '"' :: cs => (readBasic cs).map fun (s, rest) => (String.ofList s, rest)
  | '\'' :: cs => (readLiteral cs).map fun (s, rest) => (String.ofList s, rest)
  | c :: cs =>
    if isBare c then
      some (String.ofList ((c :: cs).takeWhile isBare), (c :: cs).dropWhile isBare)
    else none

/-- Reads the parts of a key, at most `count` of them, with blanks around each. -/
def readKeyParts : Nat → List Char → Option (List String × List Char)
  | 0, _ => none
  | count + 1, cs => do
    let (part, cs) ← readKeyPart (skipBlanks cs)
    match skipBlanks cs with
    | '.' :: cs => do
      let (parts, rest) ← readKeyParts count cs
      return (part :: parts, rest)
    | rest => return ([part], rest)

/-- Reads a key: the parts before the last one, and the last one. -/
def readKey (cs : List Char) : Option (List String × String × List Char) := do
  let (parts, rest) ← readKeyParts (depthLimit - 1) cs
  return (parts.dropLast, ← parts.getLast?, rest)

/-- Drops blanks, comments and line ends. -/
def skipLines : Nat → List Char → List Char
  | 0, cs => cs
  | fuel + 1, cs =>
    match lineEnd? (skipComment (skipBlanks cs)) with
    | some rest => skipLines fuel rest
    | none => skipBlanks cs

/-- Reads a truth value. -/
def readBool : List Char → Option (Bool × List Char)
  | 't' :: 'r' :: 'u' :: 'e' :: rest => some (true, rest)
  | 'f' :: 'a' :: 'l' :: 's' :: 'e' :: rest => some (false, rest)
  | _ => none

/-- Reads a value that encloses no others. -/
def readScalar (cs : List Char) : Option (Value × List Char) :=
  ((readString cs).map fun (s, rest) => (.text s, rest))
    <|> ((readMoment cs).map fun (m, rest) => (.moment m, rest))
    <|> ((readFloat cs).map fun (x, rest) => (.number x, rest))
    <|> ((readInteger cs).map fun (n, rest) => (.integer n, rest))
    <|> ((readBool cs).map fun (b, rest) => (.bool b, rest))

mutual

/-- Reads a value at a depth of nesting. -/
def readValue : Nat → Nat → List Char → Option (Value × List Char)
  | 0, _, _ => none
  | fuel + 1, depth, '[' :: cs => do
    if depthLimit ≤ depth + 1 then none
    else
      let (vs, rest) ← readItems fuel (depth + 1) cs
      return (.array vs, rest)
  | fuel + 1, depth, '\x7b' :: cs => do
    if depthLimit ≤ depth + 1 then none
    else
      match skipBlanks cs with
      | '\x7d' :: rest => return (.table [], rest)
      | cs => do
        let (ms, rest) ← readMembers fuel (depth + 1) [] cs
        return (.table (Node.values ms), rest)
  | _ + 1, _, cs => readScalar cs

/-- Reads the items of an array and its closing bracket. -/
def readItems : Nat → Nat → List Char → Option (List Value × List Char)
  | 0, _, _ => none
  | fuel + 1, depth, cs =>
    match skipLines fuel cs with
    | ']' :: rest => some ([], rest)
    | cs => do
      let (v, cs) ← readValue fuel depth cs
      match skipLines fuel cs with
      | ']' :: rest => return ([v], rest)
      | ',' :: cs => do
        let (vs, rest) ← readItems fuel depth cs
        return (v :: vs, rest)
      | _ => none

/-- Reads the members of an inline table and its closing brace. -/
def readMembers : Nat → Nat → Members → List Char → Option (Members × List Char)
  | 0, _, _, _ => none
  | fuel + 1, depth, ms, cs => do
    let (path, key, cs) ← readKey cs
    let (v, cs) ← readValue fuel depth (skipBlanks (← expect '=' cs))
    let ms ← ms.addValue path key v .explicit
    match skipBlanks cs with
    | '\x7d' :: rest => return (ms, rest)
    | ',' :: cs => readMembers fuel depth ms cs
    | _ => none

end

/-- A document under construction, and the path of the table that the next values go to. -/
structure Draft where
  /-- The members of the document. -/
  members : Members := []
  /-- The path of the last header. -/
  header : List String := []

namespace Draft

/-- Adds a value to the table of the last header. -/
def addValue (d : Draft) (path : List String) (key : String) (v : Value) : Option Draft := do
  let members ← Members.descend false (Members.addValue path key v) d.header .explicit d.members
  return { d with members }

/-- Reads the header of a table after its bracket. -/
def readTable (d : Draft) (cs : List Char) : Option (Draft × List Char) := do
  let (path, key, cs) ← readKey cs
  let rest ← endLine? (← expect ']' cs)
  return ({ members := ← d.members.addTable path key, header := path ++ [key] }, rest)

/-- Reads the header of an element of an array of tables after its brackets. -/
def readElement (d : Draft) (cs : List Char) : Option (Draft × List Char) := do
  let (path, key, cs) ← readKey cs
  let rest ← endLine? (← expect ']' (← expect ']' cs))
  return ({ members := ← d.members.addElement path key, header := path ++ [key] }, rest)

/-- Reads a key and its value. -/
def readMember (d : Draft) (cs : List Char) : Option (Draft × List Char) := do
  let (path, key, cs) ← readKey cs
  let (v, cs) ← readValue (2 * cs.length) 0 (skipBlanks (← expect '=' cs))
  let rest ← endLine? cs
  return (← d.addValue path key v, rest)

/-- Reads one line that is not empty. -/
def readLine (d : Draft) : List Char → Option (Draft × List Char)
  | '[' :: '[' :: cs => d.readElement cs
  | '[' :: cs => d.readTable cs
  | cs => d.readMember cs

/-- Reads lines up to the end of the text. -/
def readLines (d : Draft) : Nat → List Char → Option Draft
  | 0, _ => none
  | fuel + 1, cs =>
    match skipBlanks cs with
    | [] => some d
    | cs =>
      match endLine? cs with
      | some rest => d.readLines fuel rest
      | none => do
        let (d, rest) ← d.readLine cs
        d.readLines fuel rest

end Draft

/-- The members of the document that a text denotes. A byte order mark in front is ignored. -/
def readDocument? (s : String) : Option (List (String × Value)) := do
  let cs := match s.toList with
    | '\uFEFF' :: cs => cs
    | cs => cs
  let d ← ({} : Draft).readLines (cs.length + 1) cs
  return Node.values d.members

end AlertRegistry.Toml
