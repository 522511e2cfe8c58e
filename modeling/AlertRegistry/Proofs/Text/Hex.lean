import AlertRegistry.Text.Hex

/-!
# The values of hexadecimal texts

A text that was written with `hexOfNat` is read back digit by digit as the number that it was
written for (`readHex?_hexOfNat`), so different numbers have different texts.
-/

namespace AlertRegistry.Text

/-- The number that a hexadecimal text denotes, if all its characters are digits. -/
def readHex? (cs : List Char) : Option Nat :=
  (cs.mapM hexValue?).map natOfHex

theorem natOfHex_append (ds : List (Fin 16)) (d : Fin 16) :
    natOfHex (ds ++ [d]) = 16 * natOfHex ds + d.val :=
  List.foldl_append

theorem hexOfNat_of_lt (d : Fin 16) : hexOfNat d.val = [hexDigit d] :=
  Nat.toDigits_of_lt_base d.isLt

/-- The last digit is what is left over by 16. -/
theorem hexOfNat_of_le {n : Nat} (h : 16 ≤ n) :
    hexOfNat n = hexOfNat (n / 16) ++ [hexDigit (Fin.ofNat 16 n)] :=
  Nat.toDigits_of_base_le (by decide) h

/-- A number is written with the digits that make it up. -/
theorem exists_hexOfNat (n : Nat) : ∃ ds, hexOfNat n = ds.map hexDigit ∧ natOfHex ds = n := by
  induction n using Nat.strongRecOn with
  | ind n ih =>
    by_cases hn : n < 16
    · exact ⟨[⟨n, hn⟩], hexOfNat_of_lt ⟨n, hn⟩, Nat.zero_add n⟩
    · obtain ⟨ds, hds, hvalue⟩ := ih (n / 16) (by omega)
      refine ⟨ds ++ [Fin.ofNat 16 n], ?_, ?_⟩
      · rw [hexOfNat_of_le (Nat.le_of_not_lt hn), hds, List.map_append]
        rfl
      · rw [natOfHex_append, hvalue]
        exact Nat.div_add_mod n 16

theorem mapM_hexValue? (ds : List (Fin 16)) : (ds.map hexDigit).mapM hexValue? = some ds := by
  induction ds with
  | nil => rfl
  | cons d ds ih =>
    rw [List.map_cons, List.mapM_cons, hexValue?_hexDigit, ih]
    rfl

theorem readHex?_hexOfNat (n : Nat) : readHex? (hexOfNat n) = some n := by
  obtain ⟨ds, hds, hvalue⟩ := exists_hexOfNat n
  unfold readHex?
  rw [hds, mapM_hexValue?, Option.map_some, hvalue]

end AlertRegistry.Text
