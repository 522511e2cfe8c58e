import AlertRegistry.Text.Hex

/-!
# TOML strings, blanks and comments

A string stands between quotes, which may be tripled to let it run over several lines. Between
double quotes a backslash escapes; before a line end it swallows all blanks and line ends that
follow. Between single quotes nothing escapes. A line end is a line feed, with or without a carriage
return before it, and reads as a line feed. Controls other than the tab must be escaped.
-/

namespace AlertRegistry.Toml

/-- A blank inside a line. -/
def isBlank (c : Char) : Bool :=
  c = ' ' ∨ c = '\t'

/-- A character that stands for itself in strings and comments. -/
def isPlain (c : Char) : Bool :=
  c = '\t' ∨ (0x20 ≤ c.toNat ∧ c.toNat ≠ 0x7F)

/-- Drops the blanks at the front. -/
def skipBlanks (cs : List Char) : List Char :=
  cs.dropWhile isBlank

/-- What follows the line end at the front, if there is one. -/
def lineEnd? : List Char → Option (List Char)
  | '\n' :: cs => some cs
  | '\r' :: '\n' :: cs => some cs
  | _ => none

/-- Drops the comment at the front, if there is one. -/
def skipComment : List Char → List Char
  | '#' :: cs => cs.dropWhile isPlain
  | cs => cs

/-- What follows the rest of a line, which may hold blanks and a comment and may be the last. -/
def endLine? (cs : List Char) : Option (List Char) :=
  match skipComment (skipBlanks cs) with
  | [] => some []
  | cs => lineEnd? cs

/-- The character with a code point, if there is one. -/
def charOfCode? (ds : List (Fin 16)) : Option Char :=
  let n := Text.natOfHex ds
  if n.isValidChar then some (Char.ofNat n) else none

/-- The character that a one-letter escape names. -/
def escaped? : Char → Option Char
  | 'b' => some '\x08'
  | 't' => some '\t'
  | 'n' => some '\n'
  | 'f' => some '\x0c'
  | 'r' => some '\r'
  | '"' => some '"'
  | '\\' => some '\\'
  | _ => none

/-- Puts a character in front of a string that was read. -/
def push (c : Char) (r : Option (List Char × List Char)) : Option (List Char × List Char) :=
  r.map fun (s, rest) => (c :: s, rest)

/-- Reads the rest of a string after its double quote. -/
def readBasic : List Char → Option (List Char × List Char)
  | [] => none
  | '"' :: cs => some ([], cs)
  | '\\' :: 'u' :: a :: b :: c :: d :: cs => do
    let (ds, _) ← Text.takeHex 4 [a, b, c, d]
    push (← charOfCode? ds) (readBasic cs)
  | '\\' :: 'U' :: a :: b :: c :: d :: e :: f :: g :: h :: cs => do
    let (ds, _) ← Text.takeHex 8 [a, b, c, d, e, f, g, h]
    push (← charOfCode? ds) (readBasic cs)
  | '\\' :: e :: cs => do push (← escaped? e) (readBasic cs)
  | c :: cs => if c ≠ '\\' ∧ isPlain c then push c (readBasic cs) else none

/-- Reads the rest of a string after its single quote. -/
def readLiteral : List Char → Option (List Char × List Char)
  | [] => none
  | '\'' :: cs => some ([], cs)
  | c :: cs => if isPlain c then push c (readLiteral cs) else none

/-- Reads what follows three quotes that end a string: up to two more belong to the string. -/
def closeLong (quote : Char) : List Char → List Char × List Char
  | a :: b :: cs =>
    if a = quote ∧ b = quote then ([quote, quote], cs)
    else if a = quote then ([quote], b :: cs)
    else ([], a :: b :: cs)
  | [a] => if a = quote then ([quote], []) else ([], [a])
  | [] => ([], [])

/-- Reads the rest of a string after three double quotes. While `swallows` holds, blanks and line
ends are dropped. -/
def readLongBasic (swallows : Bool) : List Char → Option (List Char × List Char)
  | [] => none
  | '"' :: '"' :: '"' :: cs => some (closeLong '"' cs)
  | '\n' :: cs => if swallows then readLongBasic true cs else push '\n' (readLongBasic false cs)
  | '\r' :: '\n' :: cs =>
    if swallows then readLongBasic true cs else push '\n' (readLongBasic false cs)
  | '\\' :: 'u' :: a :: b :: c :: d :: cs => do
    let (ds, _) ← Text.takeHex 4 [a, b, c, d]
    push (← charOfCode? ds) (readLongBasic false cs)
  | '\\' :: 'U' :: a :: b :: c :: d :: e :: f :: g :: h :: cs => do
    let (ds, _) ← Text.takeHex 8 [a, b, c, d, e, f, g, h]
    push (← charOfCode? ds) (readLongBasic false cs)
  | '\\' :: e :: cs =>
    if (lineEnd? (skipBlanks (e :: cs))).isSome then readLongBasic true cs
    else do push (← escaped? e) (readLongBasic false cs)
  | c :: cs =>
    if swallows ∧ isBlank c then readLongBasic true cs
    else if c ≠ '\\' ∧ isPlain c then push c (readLongBasic false cs)
    else none

/-- Reads the rest of a string after three single quotes. -/
def readLongLiteral : List Char → Option (List Char × List Char)
  | [] => none
  | '\'' :: '\'' :: '\'' :: cs => some (closeLong '\'' cs)
  | '\n' :: cs => push '\n' (readLongLiteral cs)
  | '\r' :: '\n' :: cs => push '\n' (readLongLiteral cs)
  | c :: cs => if isPlain c then push c (readLongLiteral cs) else none

/-- What follows a line end at the front, or everything. -/
def skipLineEnd (cs : List Char) : List Char :=
  (lineEnd? cs).getD cs

/-- Reads a string of any form. -/
def readString : List Char → Option (String × List Char)
  | '"' :: '"' :: '"' :: cs => ofRead (readLongBasic false (skipLineEnd cs))
  | '"' :: cs => ofRead (readBasic cs)
  | '\'' :: '\'' :: '\'' :: cs => ofRead (readLongLiteral (skipLineEnd cs))
  | '\'' :: cs => ofRead (readLiteral cs)
  | _ => none
where
  /-- The characters as a text. -/
  ofRead (r : Option (List Char × List Char)) : Option (String × List Char) :=
    r.map fun (s, rest) => (String.ofList s, rest)

end AlertRegistry.Toml
