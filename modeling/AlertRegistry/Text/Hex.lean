/-!
# Hexadecimal digits

Identifiers, etags and escapes are written with the digits `0` to `9` and `a` to `f`. Reading takes
either case, writing gives lower case; `hexValue?_hexDigit` says that a written digit reads back.
-/

namespace AlertRegistry.Text

/-- The lower-case hexadecimal digit of a value below sixteen. -/
def hexDigit (d : Fin 16) : Char :=
  Nat.digitChar d.val

/-- The value of a hexadecimal digit of either case. -/
def hexValue? (c : Char) : Option (Fin 16) :=
  let n := c.toNat
  if h : 48 ≤ n ∧ n ≤ 57 then some ⟨n - 48, by omega⟩
  else if h : 97 ≤ n ∧ n ≤ 102 then some ⟨n - 87, by omega⟩
  else if h : 65 ≤ n ∧ n ≤ 70 then some ⟨n - 55, by omega⟩
  else none

@[simp] theorem hexValue?_hexDigit (d : Fin 16) : hexValue? (hexDigit d) = some d := by
  revert d; decide

/-- The lower-case hexadecimal text of a natural number, without leading zeros. -/
def hexOfNat (n : Nat) : List Char :=
  Nat.toDigits 16 n

/-- Reads exactly `n` hexadecimal digits and returns them with the rest of the text. -/
def takeHex : Nat → List Char → Option (List (Fin 16) × List Char)
  | 0, cs => some ([], cs)
  | _ + 1, [] => none
  | n + 1, c :: cs => do
    let d ← hexValue? c
    let (ds, rest) ← takeHex n cs
    return (d :: ds, rest)

/-- The number that a sequence of hexadecimal digits denotes. -/
def natOfHex (ds : List (Fin 16)) : Nat :=
  ds.foldl (fun n d => 16 * n + d.val) 0

end AlertRegistry.Text
