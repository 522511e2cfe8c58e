import AlertRegistry.Decimal.Binary
import AlertRegistry.Decimal.Extended
import AlertRegistry.Text.Digits

/-!
# Cells

A `Cell` is one field of a stored tuple. What a column is meant to hold does not bind its cells: an
`Affinity` converts a value on its way in where it can and leaves it as it is elsewhere. A text
column turns integers into their decimals. An integer column turns a text that reads as a number
into that number: an integer where it is integral and fits in 64 bits, a double elsewhere. The
double is read through a 64-bit significand.

Cells are ordered by their type first (null, numbers, texts, byte strings), numbers by their exact
value, texts by code point and byte strings by byte.
-/

namespace AlertRegistry

/-- One field of a stored tuple. -/
inductive Cell where
  /-- No value. -/
  | null
  /-- A 64-bit integer. -/
  | integer (n : Int)
  /-- A double. -/
  | real (x : Float)
  /-- A text. -/
  | text (s : String)
  /-- A byte string. -/
  | blob (bytes : List UInt8)
deriving DecidableEq

namespace Cell

/-- The name of the cell's type. -/
def typeName : Cell → String
  | null => "Null"
  | integer _ => "Integer"
  | real _ => "Real"
  | text _ => "Text"
  | blob _ => "Blob"

/-- The integer is at most the double, both taken exactly. -/
def integerLeReal (n : Int) (x : Float) : Bool :=
  match Decimal.Binary.ofFloat? x with
  | none => 0.0 < x
  | some b =>
    let m : Int := if b.negative then -(b.mantissa : Int) else b.mantissa
    n * Nat.pow 2 (-b.exponent).toNat ≤ m * Nat.pow 2 b.exponent.toNat

/-- The double is at most the integer, both taken exactly. -/
def realLeInteger (x : Float) (n : Int) : Bool :=
  match Decimal.Binary.ofFloat? x with
  | none => x < 0.0
  | some b =>
    let m : Int := if b.negative then -(b.mantissa : Int) else b.mantissa
    m * Nat.pow 2 b.exponent.toNat ≤ n * Nat.pow 2 (-b.exponent).toNat

/-- The byte string is at most the other one, byte by byte. -/
def bytesLe : List UInt8 → List UInt8 → Bool
  | [], _ => true
  | _ :: _, [] => false
  | a :: as, b :: bs => a < b || (a == b && bytesLe as bs)

/-- The order of cells that are not null. -/
def le : Cell → Cell → Bool
  | null, _ => true
  | _, null => false
  | integer m, integer n => m ≤ n
  | integer m, real y => integerLeReal m y
  | real x, integer n => realLeInteger x n
  | real x, real y => x ≤ y
  | integer _, _ | real _, _ => true
  | _, integer _ | _, real _ => false
  | text s, text t => s ≤ t
  | text _, blob _ => true
  | blob _, text _ => false
  | blob as, blob bs => bytesLe as bs

/-- A comparison with null neither holds nor fails, so it forbids nothing: the second cell is at
most the first one, or one of them is null. -/
def permitsGe (c d : Cell) : Bool :=
  c = null || d = null || le d c

/-! ## Numbers in texts -/

/-- The blanks that may surround a number in a text. -/
def isPadding (c : Char) : Bool :=
  c = ' ' ∨ (9 ≤ c.toNat ∧ c.toNat ≤ 13)

/-- The text without padding at either end. -/
def unpad (cs : List Char) : List Char :=
  ((cs.dropWhile isPadding).reverse.dropWhile isPadding).reverse

/-- The text after at most one sign, and whether the sign is a minus. -/
def takeSign : List Char → Bool × List Char
  | '-' :: cs => (true, cs)
  | '+' :: cs => (false, cs)
  | cs => (false, cs)

/-- The exponent that ends a number, if there is one; `none` for any other text. -/
def readExponent? : List Char → Option (Option (Bool × List Char))
  | [] => some none
  | c :: cs =>
    let (negative, ds) := takeSign cs
    if (c = 'e' ∨ c = 'E') ∧ ds ≠ [] ∧ ds.all Char.isDigit then some (some (negative, ds)) else none

/-- The number that makes up the whole text; a digit must stand on one side of the point. -/
def readNumeral? (cs : List Char) : Option Decimal.Numeral :=
  let (negative, cs) := takeSign cs
  let whole := cs.takeWhile Char.isDigit
  let (fraction, rest) := match cs.dropWhile Char.isDigit with
    | '.' :: rest => (some (rest.takeWhile Char.isDigit), rest.dropWhile Char.isDigit)
    | rest => (none, rest)
  if whole.isEmpty ∧ (fraction.getD []).isEmpty then none
  else (readExponent? rest).map fun exponent => { negative, whole, fraction, exponent }

/-- The integer in place of a double that is one and lies strictly inside the 64-bit range. -/
def ofReal (x : Float) : Cell :=
  match Decimal.Binary.ofFloat? x with
  | some b =>
    if b.isIntegral ∧ Text.minInt64 < b.truncate ∧ b.truncate < Text.maxInt64 then
      integer b.truncate
    else real x
  | none => real x

/-- The number that a text reads as: an integer if it is written as one and fits in 64 bits. -/
def ofNumberText? (cs : List Char) : Option Cell :=
  (readNumeral? (unpad cs)).map fun n =>
    let size : Int := Text.natOfDigits n.whole
    let value := if n.negative then -size else size
    if n.fraction = none ∧ n.exponent = none ∧ Text.FitsInt64 value then integer value
    else ofReal n.extended

/-- The integer after `n`, a double where the 64-bit range ends. -/
def next (n : Int) : Cell :=
  if n < Text.maxInt64 then integer (n + 1) else real (Float.ofInt (n + 1))

/-- The later of two cells, the first one if neither is. -/
def later (c d : Cell) : Cell :=
  if le d c then c else d

end Cell

/-- What a column is meant to hold. -/
inductive Affinity where
  /-- Texts. -/
  | text
  /-- Integers. -/
  | integer
deriving DecidableEq, Repr

/-- The value as a column of this affinity keeps it. -/
def Affinity.convert : Affinity → Cell → Cell
  | text, .integer n => .text (toString n)
  | integer, .text s => (Cell.ofNumberText? s.toList).getD (.text s)
  | integer, .real x => Cell.ofReal x
  | _, c => c

end AlertRegistry
