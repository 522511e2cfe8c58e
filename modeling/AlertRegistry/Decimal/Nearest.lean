import AlertRegistry.Text.Digits

/-!
# The double nearest to a decimal

A decimal is an integer times a power of ten. Its double is the nearest one, infinity if the decimal
is too large. Powers that are out of reach for every integer of that many digits are cut, so that no
large number has to be written out.
-/

namespace AlertRegistry.Decimal

/-- The double nearest to `m * 10 ^ e`, with a sign. -/
def nearest (negative : Bool) (m : Nat) (e : Int) : Float :=
  let size :=
    if m = 0 then 0.0
    else if 0 ≤ e then Float.ofScientific m false (min e.toNat 400)
    else Float.ofScientific m true (min (-e).toNat (400 + (Text.digitsOfNat m).length))
  if negative then -size else size

end AlertRegistry.Decimal
