/-!
# The parts of a double

A finite double is a sign and `m * 2 ^ q` for a natural number `m` below `2 ^ 53`; `Binary.ofFloat?`
takes it apart. The half-way points to the neighbouring doubles bound the reals that round to it;
below a power of two the lower neighbour is twice as near.
-/

namespace AlertRegistry.Decimal

/-- A finite double, taken apart. -/
structure Binary where
  /-- The sign bit. -/
  negative : Bool
  /-- The significand. -/
  mantissa : Nat
  /-- The power of two by which the significand is scaled. -/
  exponent : Int
deriving DecidableEq, Repr

namespace Binary

/-- The parts of a finite double. -/
def ofFloat? (x : Float) : Option Binary :=
  let bits := x.toBits.toNat
  let fraction : Nat := bits % 0x10000000000000
  let biased : Nat := bits / 0x10000000000000 % 0x800
  let negative := bits / 0x8000000000000000 = 1
  if biased = 2047 then none
  else if biased = 0 then some { negative, mantissa := fraction, exponent := -1074 }
  else some { negative, mantissa := 0x10000000000000 + fraction, exponent := (biased : Int) - 1075 }

/-- The value is an integer. -/
def isIntegral (b : Binary) : Bool :=
  0 ≤ b.exponent || b.mantissa % Nat.pow 2 (-b.exponent).toNat == 0

/-- The integer part of the value, toward zero. -/
def truncate (b : Binary) : Int :=
  let size : Nat :=
    if 0 ≤ b.exponent then b.mantissa * Nat.pow 2 b.exponent.toNat
    else b.mantissa / Nat.pow 2 (-b.exponent).toNat
  if b.negative then -(size : Int) else size

/-- The significand at a quarter of its unit, between the lower and the upper half-way point. -/
def quarters (b : Binary) : Nat × Nat × Nat :=
  let low := if b.mantissa = 0x10000000000000 ∧ -1074 < b.exponent then 1 else 2
  (4 * b.mantissa - low, 4 * b.mantissa, 4 * b.mantissa + 2)

end Binary

end AlertRegistry.Decimal
