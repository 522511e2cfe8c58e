/-!
# Runs of decimal digits

Numbers in periods, numerals and integer texts are runs of the ten ASCII digits. `natOfDigits` is
the value of a run (the empty run counts as zero), `padRight` extends a fraction on the right, and
`readInteger?` reads an optionally signed run. Digits of other scripts are no digits here.
-/

namespace AlertRegistry.Text

/-- The natural number that a run of digits denotes. -/
def natOfDigits (ds : List Char) : Nat :=
  Nat.ofDigitChars 10 ds 0

/-- The decimal digits of `n`, without leading zeros. -/
def digitsOfNat (n : Nat) : List Char :=
  Nat.toDigits 10 n

@[simp] theorem natOfDigits_digitsOfNat (n : Nat) : natOfDigits (digitsOfNat n) = n :=
  Nat.ofDigitChars_toDigits (by decide) (by decide)

/-- Extends a run of digits with zeros on the right up to `width` places. -/
def padRight (width : Nat) (ds : List Char) : List Char :=
  ds ++ List.replicate (width - ds.length) '0'

/-- Extends a run of digits with zeros on the left up to `width` places. -/
def padLeft (width : Nat) (ds : List Char) : List Char :=
  List.replicate (width - ds.length) '0' ++ ds

/-- The number of a nonempty run of digits, or `none` for any other text. -/
def readNat? (cs : List Char) : Option Nat :=
  if cs ≠ [] ∧ cs.all Char.isDigit then some (natOfDigits cs) else none

/-- The integer of a nonempty run of digits after at most one sign. -/
def readInteger? : List Char → Option Int
  | '-' :: cs => (readNat? cs).map fun n => -(n : Int)
  | '+' :: cs => (readNat? cs).map Int.ofNat
  | cs => (readNat? cs).map Int.ofNat

/-- The least value of a 64-bit signed integer. -/
def minInt64 : Int := -0x8000000000000000

/-- The greatest value of a 64-bit signed integer. -/
def maxInt64 : Int := 0x7FFFFFFFFFFFFFFF

/-- The integer lies in the range of 64-bit signed integers. -/
def FitsInt64 (n : Int) : Prop :=
  minInt64 ≤ n ∧ n ≤ maxInt64

instance (n : Int) : Decidable (FitsInt64 n) :=
  inferInstanceAs (Decidable (_ ∧ _))

end AlertRegistry.Text
