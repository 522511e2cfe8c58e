import AlertRegistry.Decimal.Shortest

/-!
# How a decimal is written

A decimal is written positionally while the place of its first digit lies between two bounds, and
with an exponent outside them. The bounds and the other choices make up a `Style`.
-/

namespace AlertRegistry.Decimal

/-- The choices of a way to write decimals. -/
structure Style where
  /-- The least place of the first digit that is written positionally. -/
  minPlace : Int
  /-- The greatest place of the first digit that is written positionally. -/
  maxPlace : Int

namespace Style

/-- The positional form, with `.0` after an integer. -/
def positional (d : Digits) : List Char :=
  if d.place < 0 then
    '0' :: '.' :: List.replicate ((-d.place).toNat - 1) '0' ++ d.digits
  else
    let whole := d.digits.take (d.place.toNat + 1)
    let rest := d.digits.drop (d.place.toNat + 1)
    whole ++ List.replicate (d.place.toNat + 1 - whole.length) '0'
      ++ '.' :: (if rest.isEmpty then ['0'] else rest)

/-- The form with one digit before the point and a signed exponent. -/
def scientific (d : Digits) : List Char :=
  let fraction := d.digits.drop 1
  d.digits.take 1 ++ (if fraction.isEmpty then [] else '.' :: fraction)
    ++ 'e' :: (if d.place < 0 then '-' else '+') :: Text.digitsOfNat d.place.natAbs

/-- The characters of a positive decimal. -/
def write (style : Style) (d : Digits) : List Char :=
  if style.minPlace ≤ d.place ∧ d.place ≤ style.maxPlace then positional d else scientific d

/-- The characters of a finite double in its shortest decimal, with its sign. -/
def writeBinary (style : Style) (b : Binary) : List Char :=
  (if b.negative then ['-'] else [])
    ++ if b.mantissa = 0 then ['0', '.', '0'] else style.write (shortest b)

end Style

end AlertRegistry.Decimal
