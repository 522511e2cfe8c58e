import AlertRegistry.Decimal.Numeral

/-!
# Numerals read through a 64-bit significand

An `Extended` number is `m * 2 ^ e` for an `m` of at most 64 bits; products are rounded to such a
number, a half to the even neighbour. `Numeral.extended` reads a numeral through them. The digits
are first collected into an integer, from the left and as long as it stays clear of `2 ^ 64`; digits
before the point that do not fit count as zeros, digits after it are dropped. The integer takes up
what it can of the power of ten, and is then multiplied by `10 ^ 100`, `10 ^ 10` and `10`, or by
their inverses, as often as is needed. The product is rounded to a double last. So the double is
close to what is written, but not always the one nearest to it.
-/

namespace AlertRegistry.Decimal

/-- A natural number of at most 64 bits times a power of two. -/
structure Extended where
  /-- The significand. -/
  mantissa : Nat
  /-- The power of two by which the significand is scaled. -/
  exponent : Int
deriving DecidableEq, Repr

namespace Extended

/-- The number of bits of a natural number. -/
def width (n : Nat) : Nat :=
  if n = 0 then 0 else n.log2 + 1

/-- The integer nearest to `m / 2 ^ k`, the even one of two. -/
def roundShift (m k : Nat) : Nat :=
  let unit := Nat.pow 2 k
  let q := m / unit
  let r := m % unit
  if unit < 2 * r ∨ (unit = 2 * r ∧ q % 2 = 1) then q + 1 else q

/-- The number nearest to `m * 2 ^ e`. -/
def round (m : Nat) (e : Int) : Extended :=
  let excess := width m - 64
  { mantissa := roundShift m excess, exponent := e + excess }

/-- The number nearest to `1 / d`. The quotient has more than 64 bits; one more bit tells whether
there is a remainder, so that it is rounded as the exact value is. -/
def inverse (d : Nat) : Extended :=
  let k := width d + 65
  let one := Nat.pow 2 k
  round (2 * (one / d) + if one % d = 0 then 0 else 1) (-(k : Int) - 1)

/-- The product. -/
def mul (x y : Extended) : Extended :=
  round (x.mantissa * y.mantissa) (x.exponent + y.exponent)

/-- The number nearest to `10 ^ k`, or to its inverse. -/
def tenToThe (inverted : Bool) (k : Nat) : Extended :=
  if inverted then inverse (Nat.pow 10 k) else round (Nat.pow 10 k) 0

/-- Scales a number by a power of ten: by hundreds, by tens and by ones of the exponent. -/
def scale (x : Extended) (power : Int) : Extended :=
  let times (k n : Nat) (x : Extended) : Extended :=
    Nat.repeat (·.mul (tenToThe (power < 0) k)) n x
  let n := power.natAbs
  times 1 (n % 10) (times 10 (n / 10 % 10) (times 100 (n / 100) x))

/-- The greatest double is less than the number. -/
def exceedsFloat (x : Extended) : Bool :=
  0x1FFFFFFFFFFFFF * Nat.pow 2 (971 - x.exponent).toNat
    < x.mantissa * Nat.pow 2 (x.exponent - 971).toNat

/-- The double nearest to the number; a number above the greatest double is infinite. -/
def toFloat (x : Extended) : Float :=
  if x.exceedsFloat then Float.ofBits 0x7FF0000000000000
  else
    let drop := max ((width x.mantissa : Int) - 53) (-1074 - x.exponent)
    let m := roundShift (x.mantissa * Nat.pow 2 (-drop).toNat) drop.toNat
    Float.ofBits ((x.exponent + drop + 1074).toNat * 0x10000000000000 + m).toUInt64

end Extended

/-- Collects digits after the value `m` while there is room for any further digit below `2 ^ 64`,
and counts those that are left. -/
def collectClear (m : Nat) : List Char → Nat × Nat
  | [] => (m, 0)
  | d :: ds =>
    if m < (0x10000000000000000 - 10) / 10 then collectClear (Nat.ofDigitChars 10 [d] m) ds
    else (m, ds.length + 1)

/-- Multiplies by ten as often as asked, or while there is room, and counts what is left to do. -/
def takeUp (m : Nat) : Nat → Nat × Nat
  | 0 => (m, 0)
  | k + 1 => if m < (0x10000000000000000 - 0x800) / 10 then takeUp (10 * m) k else (m, k + 1)

/-- Divides by ten as often as asked, or while that is exact, and counts what is left to do. -/
def takeDown (m : Nat) : Nat → Nat × Nat
  | 0 => (m, 0)
  | k + 1 => if m % 10 = 0 then takeDown (m / 10) k else (m, k + 1)

/-- The value of the digits of an exponent; a digit that follows a value of `10 ^ 4` or more leaves
`10 ^ 4`. -/
def exponentOfDigits (ds : List Char) : Nat :=
  ds.foldl (fun e d => if e < 10000 then Nat.ofDigitChars 10 [d] e else 10000) 0

namespace Numeral

/-- The digits collected into an integer, and the power of ten that scales it. -/
def collectedClear (n : Numeral) : Nat × Int :=
  let (m, extra) := collectClear 0 n.whole
  let ds := n.fraction.getD []
  let (m, dropped) := collectClear m ds
  let written : Int :=
    match n.exponent with
    | none => 0
    | some (negative, ds) =>
      if negative then -(exponentOfDigits ds : Int) else exponentOfDigits ds
  (m, written + extra - ((ds.length : Int) - dropped))

/-- The value of a numeral, read through a 64-bit significand. -/
def extended (n : Numeral) : Float :=
  let (m, power) := n.collectedClear
  let size :=
    if m = 0 then 0.0
    else if 0 ≤ power then
      let (m, k) := takeUp m power.toNat
      (Extended.scale { mantissa := m, exponent := 0 } k).toFloat
    else
      let (m, k) := takeDown m (-power).toNat
      (Extended.scale { mantissa := m, exponent := 0 } (-(k : Int))).toFloat
  n.signed size

end Numeral

end AlertRegistry.Decimal
