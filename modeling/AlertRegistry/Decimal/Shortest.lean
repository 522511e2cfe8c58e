import AlertRegistry.Decimal.Binary
import AlertRegistry.Text.Digits

/-!
# Shortest decimals

The shortest decimal of a double is the one with the fewest digits among those that round to it, and
the nearest to it of these. A decimal of `n` digits is a point of a grid whose step is a power of
ten; if any point of the grid rounds to the double, one of the two grid points next to it does. So
for 1, 2, … 17 digits these two points are tested in exact arithmetic, and the first grid with a hit
wins. Of two hits the nearer one is taken, and of two equally near ones the even one.
-/

namespace AlertRegistry.Decimal

/-- A positive decimal: `digits` is an integer that does not end in zero, and the value is that
integer times a power of ten such that the first digit has the place `place`. -/
structure Digits where
  /-- The digits, from the first on. -/
  digits : List Char
  /-- The power of ten at the first digit. -/
  place : Int
deriving DecidableEq, Repr

/-- The number of decimal digits of a natural number. -/
def width (n : Nat) : Nat :=
  (Text.digitsOfNat n).length

/-- The power of ten at the first digit of the positive fraction `num / den`. -/
def leadingPlace (num den : Nat) : Int :=
  if den ≤ num then (width (num / den) : Int) - 1
  else
    let k := width (den / num)
    if den ≤ num * Nat.pow 10 (k - 1) then 1 - (k : Int) else -(k : Int)

/-- The multiple `a` of `10 ^ step` that is next to the value and rounds to it, if any. The value
and the two half-way points are given as numerators over `den`; `closed` tells whether the half-way
points themselves round to the value. -/
def nearestOnGrid? (low mid high den : Nat) (closed : Bool) (step : Int) : Option Nat :=
  let up := Nat.pow 10 step.toNat
  let down := Nat.pow 10 (-step).toNat
  let below := mid * down / (den * up)
  let rounds (a : Nat) : Bool :=
    let x := a * den * up
    if closed then low * down ≤ x && x ≤ high * down else low * down < x && x < high * down
  let gapBelow := mid * down - below * den * up
  let gapAbove := (below + 1) * den * up - mid * down
  match rounds below, rounds (below + 1) with
  | true, true =>
    if gapBelow < gapAbove ∨ (gapBelow = gapAbove ∧ below % 2 = 0) then some below
    else some (below + 1)
  | true, false => some below
  | false, true => some (below + 1)
  | false, false => none

/-- Tries grids of more and more digits, `remaining` of them, starting with `count` digits. -/
def searchGrids (low mid high den : Nat) (closed : Bool) (place : Int) :
    Nat → Nat → Option (Nat × Int)
  | _, 0 => none
  | count, remaining + 1 =>
    let step := place - ((count : Int) - 1)
    match nearestOnGrid? low mid high den closed step with
    | some a => some (a, step)
    | none => searchGrids low mid high den closed place (count + 1) remaining

/-- The shortest decimal of a positive double. -/
def shortest (b : Binary) : Digits :=
  let (low, mid, high) := b.quarters
  let scale := b.exponent - 2
  let up := Nat.pow 2 scale.toNat
  let den := Nat.pow 2 (-scale).toNat
  let place := leadingPlace (mid * up) den
  let closed := b.mantissa % 2 == 0
  match searchGrids (low * up) (mid * up) (high * up) den closed place 1 17 with
  | none => { digits := ['0'], place := 0 }
  | some (a, step) =>
    let ds := Text.digitsOfNat a
    { digits := (ds.reverse.dropWhile (· = '0')).reverse
      place := step + (ds.length : Int) - 1 }

end AlertRegistry.Decimal
