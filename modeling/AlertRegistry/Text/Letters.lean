/-!
# Letters of the ASCII alphabet

Case differences are ignored for the letters `A` to `Z` only; every other character is its own
lower case. `lowerPoint` does the same on code points.
-/

namespace AlertRegistry.Text

/-- The text with its ASCII capitals in lower case. -/
def lower (s : String) : String :=
  String.ofList (s.toList.map Char.toLower)

/-- The lower case of the code point of an ASCII capital, and any other code point itself. -/
def lowerPoint (n : Nat) : Nat :=
  if 65 ≤ n ∧ n ≤ 90 then n + 32 else n

theorem lowerPoint_eq_lowerPoint_iff {m n : Nat} :
    lowerPoint m = lowerPoint n ↔
      m = n ∨ (65 ≤ m ∧ m ≤ 90 ∧ n = m + 32) ∨ (65 ≤ n ∧ n ≤ 90 ∧ m = n + 32) := by
  simp only [lowerPoint]
  split <;> split <;> omega

end AlertRegistry.Text
