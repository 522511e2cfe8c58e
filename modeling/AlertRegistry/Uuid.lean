import AlertRegistry.Text.Hex

/-!
# Identifiers

A `Uuid` is a sequence of 32 hexadecimal digits. It is written in lower case with hyphens between
groups of 8, 4, 4, 4 and 12 digits. Reading takes that form in either case, the 32 digits without
hyphens, the hyphenated form in braces, and the hyphenated form after `urn:uuid:`.
-/

namespace AlertRegistry

/-- A 128-bit identifier, as its hexadecimal digits from the most significant on. -/
structure Uuid where
  /-- The digits. -/
  digits : List (Fin 16)
  /-- There are 32 digits. -/
  length_digits : digits.length = 32
deriving DecidableEq

namespace Uuid

/-- The identifier with the given digits, if there are 32 of them. -/
def ofDigits? (ds : List (Fin 16)) : Option Uuid :=
  if h : ds.length = 32 then some ⟨ds, h⟩ else none

theorem ofDigits?_eq_some_iff {ds : List (Fin 16)} {u : Uuid} :
    ofDigits? ds = some u ↔ u.digits = ds := by
  obtain ⟨es, h⟩ := u
  simp only [ofDigits?]
  split
  · simp only [Option.some.injEq, Uuid.mk.injEq]; exact eq_comm
  · rename_i hd
    simp only [reduceCtorEq, false_iff]
    rintro rfl
    exact hd h

/-- The lengths of the hyphenated groups. -/
def groups : List Nat := [8, 4, 4, 4, 12]

/-- Reads groups of digits of the given lengths with a hyphen between each two of them. -/
def readGroups : List Nat → List Char → Option (List (Fin 16))
  | [], cs => if cs.isEmpty then some [] else none
  | [n], cs => do
    let (ds, rest) ← Text.takeHex n cs
    if rest.isEmpty then some ds else none
  | n :: m :: ns, cs => do
    let (ds, rest) ← Text.takeHex n cs
    match rest with
    | '-' :: rest => return ds ++ (← readGroups (m :: ns) rest)
    | _ => none

/-- Reads the hyphenated form. -/
def readHyphenated? (cs : List Char) : Option Uuid := do
  ofDigits? (← readGroups groups cs)

/-- The scheme that may stand before a hyphenated identifier, in either case. -/
def scheme : List Char := "urn:uuid:".toList

/-- Reads any accepted form. -/
def read? (cs : List Char) : Option Uuid :=
  if cs.length = 32 then do ofDigits? (← readGroups [32] cs)
  else if (cs.take scheme.length).map Char.toLower = scheme then
    readHyphenated? (cs.drop scheme.length)
  else if cs.head? = some '{' ∧ cs.getLast? = some '}' then readHyphenated? cs.tail.dropLast
  else readHyphenated? cs

/-- The identifier that a text denotes. -/
def ofString? (s : String) : Option Uuid :=
  read? s.toList

/-- Writes digits in groups of the given lengths with a hyphen between each two of them. -/
def writeGroups : List Nat → List (Fin 16) → List Char
  | [], _ => []
  | [n], ds => (ds.take n).map Text.hexDigit
  | n :: m :: ns, ds => (ds.take n).map Text.hexDigit ++ '-' :: writeGroups (m :: ns) (ds.drop n)

/-- The characters of the hyphenated form in lower case. -/
def toChars (u : Uuid) : List Char :=
  writeGroups groups u.digits

/-- The hyphenated form in lower case. -/
protected def toString (u : Uuid) : String :=
  String.ofList u.toChars

instance : ToString Uuid where
  toString := Uuid.toString

/-- The version of an identifier, the digit that tells how it was made. -/
def version (u : Uuid) : Nat :=
  (u.digits[12]?.map Fin.val).getD 0

/-- The digits of `n` in base 16, `count` of them, the least significant last. -/
def hexDigitsOf (count n : Nat) : List (Fin 16) :=
  (List.range count).reverse.map fun i => Fin.ofNat 16 (n / Nat.pow 16 i)

/-- The random identifier, version 4, that is made of the bits of a number. -/
def ofRandom (bits : Nat) : Uuid where
  digits :=
    hexDigitsOf 12 (bits >>> 80) ++ 4 :: hexDigitsOf 3 (bits >>> 64)
      ++ Fin.ofNat 16 (8 + bits >>> 60 % 4) :: hexDigitsOf 15 bits
  length_digits := by simp [hexDigitsOf]

end Uuid

end AlertRegistry
