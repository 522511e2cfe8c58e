import AlertRegistry.Text.Digits

/-!
# Numerals and their values

A `Numeral` is a number as it is written: a sign, the digits before and after the point, and an
exponent. `Numeral.integer?` is its value as a 64-bit integer, `Numeral.float?` its value as a
double.

The double is not the one nearest to the written number. The digits are first collected into an
unsigned 64-bit integer, from the left and as long as they fit; digits before the point that do not
fit count as zeros, digits after it are dropped. This integer is rounded to a double and then scaled
by a power of ten in one multiplication or division, after divisions by `10 ^ 308` that bring a very
small power into range. A number too large for a double is refused.
-/

namespace AlertRegistry.Decimal

/-- A number as it is written. -/
structure Numeral where
  /-- There is a minus sign. -/
  negative : Bool
  /-- The digits before the point. -/
  whole : List Char
  /-- The digits after the point, if there is one. -/
  fraction : Option (List Char)
  /-- The exponent, if there is one: whether it is negative, and its digits. -/
  exponent : Option (Bool × List Char)
deriving DecidableEq, Repr

/-- Collects digits after the value `m` while the result stays below `2 ^ 64`, and counts those that
are left. -/
def collect (m : Nat) : List Char → Nat × Nat
  | [] => (m, 0)
  | d :: ds =>
    let m' := Nat.ofDigitChars 10 [d] m
    if m' < 0x10000000000000000 then collect m' ds else (m, ds.length + 1)

/-- The power of ten as a double. -/
def tenToThe (k : Nat) : Float :=
  Float.ofScientific 1 false k

/-- Scales a double by a power of ten; `none` if the result is too large for a double. -/
def scale? (f : Float) (power : Int) : Option Float :=
  if power.natAbs ≤ 308 then
    if 0 ≤ power then
      let g := f * tenToThe power.natAbs
      if g.isInf then none else some g
    else some (f / tenToThe power.natAbs)
  else if f == 0.0 then some f
  else if 0 ≤ power then none
  else scale? (f / tenToThe 308) (power + 308)
termination_by power.natAbs
decreasing_by omega

namespace Numeral

/-- The sign of the numeral put on a number. -/
def signed (n : Numeral) (f : Float) : Float :=
  if n.negative then -f else f

/-- The value of a numeral without point and exponent, if it is a 64-bit integer, unsigned or
signed. A negative zero is none. -/
def integer? (n : Numeral) : Option Int :=
  if n.fraction = none ∧ n.exponent = none then
    let m := Text.natOfDigits n.whole
    if n.negative then
      if 0 < m ∧ m ≤ 0x8000000000000000 then some (-(m : Int)) else none
    else if m < 0x10000000000000000 then some m else none
  else none

/-- The digits collected into an integer, and the power of ten that scales it, the written exponent
left aside. -/
def collected (n : Numeral) : Nat × Int :=
  let (m, extra) := collect 0 n.whole
  match n.fraction with
  | none => (m, extra)
  | some ds =>
    let (m, dropped) := collect m ds
    (m, (extra : Int) - ((ds.length : Int) - dropped))

/-- The value of a numeral as a double, or `none` if it is too large. -/
def float? (n : Numeral) : Option Float :=
  let (m, power) := n.collected
  let f := m.toUInt64.toFloat
  match n.exponent with
  | none => (scale? f power).map n.signed
  | some (negative, ds) =>
    let e := Text.natOfDigits ds
    if 0x80000000 ≤ e then
      if m ≠ 0 ∧ !negative then none else some (n.signed 0.0)
    else
      (scale? f (if negative then power - (e : Int) else power + (e : Int))).map n.signed

end Numeral

end AlertRegistry.Decimal
