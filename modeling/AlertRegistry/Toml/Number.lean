import AlertRegistry.Decimal.Nearest
import AlertRegistry.Text.Hex

/-!
# TOML numbers

An integer is decimal with an optional sign and without leading zeros, or hexadecimal, octal or
binary after a prefix. A float has a fraction, an exponent, or both, or is one of the names `inf`
and `nan`. Single underscores may stand between digits. An integer must fit in 64 bits, and a
positive float must not be too large for a double.
-/

namespace AlertRegistry.Toml

/-- Reads a nonempty run of digits with single underscores between them. -/
def readRun (isDigit : Char → Bool) : List Char → Option (List Char × List Char)
  | [] => none
  | [c] => if isDigit c then some ([c], []) else none
  | c :: '_' :: cs =>
    if isDigit c then (readRun isDigit cs).map fun (ds, rest) => (c :: ds, rest) else none
  | c :: cs =>
    if isDigit c then
      match readRun isDigit cs with
      | some (ds, rest) => some (c :: ds, rest)
      | none => some ([c], cs)
    else none

/-- Reads an optional sign: whether it is a minus. -/
def readSign : List Char → Bool × List Char
  | '-' :: cs => (true, cs)
  | '+' :: cs => (false, cs)
  | cs => (false, cs)

/-- Reads the digits of a decimal integer: a single zero, or a run that does not start with one. -/
def readWhole : List Char → Option (List Char × List Char)
  | '0' :: cs => some (['0'], cs)
  | cs => readRun Char.isDigit cs

/-- The value of digits in a base. -/
def natOfRun (base : Nat) (ds : List Char) : Nat :=
  ds.foldl (fun n c => base * n + ((Text.hexValue? c).map Fin.val).getD 0) 0

/-- Reads an integer after the prefix of its base. -/
def readPrefixed (base : Nat) (cs : List Char) : Option (Int × List Char) := do
  let isDigit (c : Char) : Bool :=
    match Text.hexValue? c with
    | some d => d.val < base
    | none => false
  let (ds, rest) ← readRun isDigit cs
  let n : Int := natOfRun base ds
  if n ≤ Text.maxInt64 then some (n, rest) else none

/-- Reads an integer. -/
def readInteger : List Char → Option (Int × List Char)
  | '0' :: 'x' :: cs => readPrefixed 16 cs
  | '0' :: 'o' :: cs => readPrefixed 8 cs
  | '0' :: 'b' :: cs => readPrefixed 2 cs
  | cs => do
    let (negative, cs) := readSign cs
    let (ds, rest) ← readWhole cs
    let n : Int := Text.natOfDigits ds
    let n := if negative then -n else n
    if Text.FitsInt64 n then some (n, rest) else none

/-- Reads the digits after a point. -/
def readFraction : List Char → Option (List Char × List Char)
  | '.' :: cs => readRun Char.isDigit cs
  | _ => none

/-- Reads an exponent. -/
def readExponent : List Char → Option (Int × List Char)
  | [] => none
  | c :: cs =>
    if c = 'e' ∨ c = 'E' then do
      let (negative, cs) := readSign cs
      let (ds, rest) ← readRun Char.isDigit cs
      let n : Int := Text.natOfDigits ds
      some (if negative then -n else n, rest)
    else none

/-- Reads a float that is given by digits. -/
def readDecimal (cs : List Char) : Option (Float × List Char) := do
  let (negative, cs) := readSign cs
  let (whole, cs) ← readWhole cs
  let (fraction, exponent, rest) ←
    match readFraction cs with
    | some (ds, rest) =>
      match readExponent rest with
      | some (e, rest) => some (ds, e, rest)
      | none => some (ds, 0, rest)
    | none => (readExponent cs).map fun (e, rest) => ([], e, rest)
  let x := Decimal.nearest negative (Text.natOfDigits (whole ++ fraction))
    (exponent - fraction.length)
  if x.isInf ∧ !negative then none else some (x, rest)

/-- Reads a float that is given by its name. -/
def readNamed (cs : List Char) : Option (Float × List Char) :=
  let (negative, cs) := readSign cs
  match cs with
  | 'i' :: 'n' :: 'f' :: rest => some (if negative then -1.0 / 0.0 else 1.0 / 0.0, rest)
  | 'n' :: 'a' :: 'n' :: rest => some (0.0 / 0.0, rest)
  | _ => none

/-- Reads a float. -/
def readFloat (cs : List Char) : Option (Float × List Char) :=
  readDecimal cs <|> readNamed cs

end AlertRegistry.Toml
