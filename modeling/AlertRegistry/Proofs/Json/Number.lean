import AlertRegistry.Json.Printer
import AlertRegistry.Proofs.Decimal.Style

/-!
# Doubles read back from their numerals

A finite double is written as its shortest decimal, and the numeral is read with the roundings of
`readSize`. It is never refused, not even next to the greatest double (`float?_numeral`), and what
is read has the size `readBack`. That is not always the size of the double, but it is if the digits
make up an integer of 53 bits and the power of ten is itself a double
(`readBack_eq_size`).
-/

namespace AlertRegistry.Json

open Decimal
open Double (IsCanonical Denotes size bound)

/-! ## The parts of what is written -/

section

variable {d : Digits} (hd : d.WellFormed)

include hd

theorem parts_fst_le : (numberStyle.parts d).1 ≤ 10 ^ 17 := by
  unfold Style.parts
  split
  · next h =>
    have hmax : d.place ≤ 15 := h.1.2
    have hlt := Text.natOfDigits_lt hd.isDigit
    have hlen := List.length_pos_iff.2 hd.ne_nil
    calc Text.natOfDigits d.digits * 10 ^ (d.place.toNat + 2 - d.digits.length)
        ≤ 10 ^ d.digits.length * 10 ^ (d.place.toNat + 2 - d.digits.length) :=
          Nat.mul_le_mul_right _ hlt.le
      _ = 10 ^ (d.place.toNat + 2) := by
        rw [← Nat.pow_add]
        congr 1
        omega
      _ ≤ 10 ^ 17 := Nat.pow_le_pow_right (by decide) (by omega)
  · exact hd.le_pow

end

theorem parts_snd_eq (d : Digits) :
    (numberStyle.parts d).2 = -1 ∨ numberStyle.parts d = (Text.natOfDigits d.digits, d.power) := by
  unfold Style.parts
  split
  · exact .inl rfl
  · exact .inr rfl

/-! ## Nothing is refused -/

section

variable {b : Binary} (hc : IsCanonical b.mantissa b.exponent) (hm : 0 < b.mantissa)

/-- The decimals of the two greatest doubles are read as finite doubles. -/
theorem isInf_greatest : ∀ (negative : Bool) (k : Fin 2),
    let d := shortest { negative, mantissa := 2 ^ 53 - 1 - k, exponent := 971 }
    ((Text.natOfDigits d.digits).toUInt64.toFloat * tenToThe d.power.natAbs).isInf = false := by
  decide +kernel

include hc in
/-- Below the two greatest doubles there is room for three roundings. -/
theorem upperHalfway_lt (he : b.exponent ≤ 971)
    (hne : b.exponent ≠ 971 ∨ b.mantissa < 2 ^ 53 - 2) :
    (1 + 1 / 2 ^ 53) * ((1 + 1 / 2 ^ 53) * upperHalfway b)
      < (2 ^ 53 - 1 / 2) * 2 ^ (971 : ℤ) := by
  have hunit := Double.zpow_two_pos 971
  have hle : upperHalfway b ≤ (2 ^ 53 - 5 / 2) * 2 ^ (971 : ℤ) := by
    unfold upperHalfway
    by_cases htop : b.exponent = 971
    · -- two units below the greatest double
      have hmantissa : (b.mantissa : ℚ) + 3 ≤ 2 ^ 53 := by
        have := hne.resolve_left (not_not.2 htop)
        exact_mod_cast (by omega : b.mantissa + 3 ≤ 2 ^ 53)
      rw [htop]
      exact mul_le_mul_of_nonneg_right (by linarith) hunit.le
    · -- a smaller exponent makes it half as large at most
      have hmantissa : (b.mantissa : ℚ) + 1 ≤ 2 ^ 53 := mod_cast hc.mantissa
      have hhalf : (2 : ℚ) ^ b.exponent ≤ 2 ^ (971 : ℤ) / 2 := by
        calc (2 : ℚ) ^ b.exponent ≤ 2 ^ (971 - 1 : ℤ) :=
              zpow_le_zpow_right₀ one_le_two (by omega)
          _ = 2 ^ (971 : ℤ) / 2 := zpow_sub_one₀ two_ne_zero 971
      calc ((b.mantissa : ℚ) + 1 / 2) * 2 ^ b.exponent
          ≤ 2 ^ 53 * (2 ^ (971 : ℤ) / 2) :=
            mul_le_mul (by linarith) hhalf (Double.zpow_two_pos _).le (by norm_num)
        _ ≤ (2 ^ 53 - 5 / 2) * 2 ^ (971 : ℤ) := by
          generalize (2 : ℚ) ^ (971 : ℤ) = unit at hunit ⊢
          linarith
  generalize (2 : ℚ) ^ (971 : ℤ) = unit at hunit hle ⊢
  calc (1 + 1 / 2 ^ 53) * ((1 + 1 / 2 ^ 53) * upperHalfway b)
      ≤ (1 + 1 / 2 ^ 53) * ((1 + 1 / 2 ^ 53) * ((2 ^ 53 - 5 / 2) * unit)) :=
        mul_le_mul_of_nonneg_left (mul_le_mul_of_nonneg_left hle (by norm_num)) (by norm_num)
    _ < (2 ^ 53 - 1 / 2) * unit := by linarith

include hc hm

/-- The shortest decimal of a double is not refused. -/
theorem readSize_shortest_lt_bound (he : b.exponent ≤ 971) (hpos : 0 ≤ (shortest b).power) :
    readSize (Text.natOfDigits (shortest b).digits) (shortest b).power < bound := by
  have hform := wellFormed_shortest hc hm
  have hden := denotes_toFloat (m := Text.natOfDigits (shortest b).digits)
    (hform.le_pow.trans_lt (by decide))
  have hpower := power_shortest_le hc hm he
  have hten := denotes_tenToThe (k := (shortest b).power.natAbs) (by omega)
  unfold readSize scaledSize
  rw [if_pos hpos]
  by_cases htop : b.exponent = 971 ∧ 2 ^ 53 - 2 ≤ b.mantissa
  · -- the bounds on the errors do not suffice for the two greatest doubles, so these are computed
    have hmax := hc.mantissa
    obtain ⟨k, hk⟩ : ∃ k : Fin 2, b = ⟨b.negative, 2 ^ 53 - 1 - k, 971⟩ := by
      refine ⟨⟨2 ^ 53 - 1 - b.mantissa, by omega⟩, ?_⟩
      obtain ⟨_, m, e⟩ := b
      dsimp only at htop hmax ⊢
      rw [htop.1, show 2 ^ 53 - 1 - (2 ^ 53 - 1 - m) = m by omega]
    refine hden.nearest_mul_lt hten ?_
    rw [hk]
    exact isInf_greatest b.negative k
  · have hone : (1 : ℚ) ≤ Text.natOfDigits (shortest b).digits :=
      mod_cast natOfDigits_shortest_pos hc hm
    have hvalue : (Text.natOfDigits (shortest b).digits : ℚ) * 10 ^ (shortest b).power.natAbs
        ≤ upperHalfway b := by
      have hpow : (10 : ℚ) ^ (shortest b).power.natAbs = 10 ^ (shortest b).power := by
        rw [← zpow_natCast, Int.natAbs_of_nonneg hpos]
      rw [hpow]
      exact (between_value_shortest hc hm).le.2
    -- the roundings of the integer and of the power add one part in `2 ^ 53` each
    have hm1 := Double.nearest_le_mul hone
    have hp1 := Double.nearest_le_mul
      (one_le_pow₀ (by norm_num : (1 : ℚ) ≤ 10) (n := (shortest b).power.natAbs))
    apply Double.nearest_lt_bound (mul_nonneg hden.nonneg hten.nonneg)
    refine lt_of_le_of_lt ?_ (upperHalfway_lt hc he (by omega))
    calc Double.nearest (Text.natOfDigits (shortest b).digits)
          * Double.nearest (10 ^ (shortest b).power.natAbs)
        ≤ (1 + 1 / 2 ^ 53) * Text.natOfDigits (shortest b).digits
          * ((1 + 1 / 2 ^ 53) * 10 ^ (shortest b).power.natAbs) :=
          mul_le_mul hm1 hp1 hten.nonneg (by positivity)
      _ = (1 + 1 / 2 ^ 53) * ((1 + 1 / 2 ^ 53) * (Text.natOfDigits (shortest b).digits
          * 10 ^ (shortest b).power.natAbs)) := by ring
      _ ≤ (1 + 1 / 2 ^ 53) * ((1 + 1 / 2 ^ 53) * upperHalfway b) :=
        mul_le_mul_of_nonneg_left (mul_le_mul_of_nonneg_left hvalue (by norm_num)) (by norm_num)

end

/-! ## What is read back -/

/-- The size of the double that is read for what is written for a double. -/
def readBack (b : Binary) : ℚ :=
  readSize (numberStyle.numeral b).written.1 (numberStyle.numeral b).written.2

section

variable {b : Binary} (hc : IsCanonical b.mantissa b.exponent)

include hc

theorem wellFormed_numeral : (numberStyle.numeral b).WellFormed :=
  Style.wellFormed_numeral numberStyle fun hm => wellFormed_shortest hc hm

theorem natAbs_writtenExponent_lt (he : b.exponent ≤ 971) :
    (numberStyle.numeral b).writtenExponent.natAbs < 2 ^ 31 := by
  rcases Nat.eq_zero_or_pos b.mantissa with hm | hm
  · unfold Style.numeral
    rw [if_pos hm]
    exact Nat.two_pow_pos 31
  · have hlen := (wellFormed_shortest hc hm).length_le
    have hlo := le_power_shortest hc hm
    have hhi := power_shortest_le hc hm he
    unfold Digits.power at hlo hhi
    refine (Style.natAbs_writtenExponent_le numberStyle b).trans_lt ?_
    omega

/-- The integer and the power of ten are within the reach of the reader. -/
theorem written_numeral_mem (he : b.exponent ≤ 971) :
    (numberStyle.numeral b).written.1 < 2 ^ 64 ∧ -616 ≤ (numberStyle.numeral b).written.2
      ∧ (numberStyle.numeral b).written.2 ≤ 308 := by
  rcases Nat.eq_zero_or_pos b.mantissa with hm | hm
  · rw [Style.written_numeral_zero _ hm]
    decide
  · have hform := wellFormed_shortest hc hm
    have hfst := parts_fst_le hform
    have hlo := le_power_shortest hc hm
    have hhi := power_shortest_le hc hm he
    rw [Style.written_numeral _ hm hform.ne_nil]
    refine ⟨by omega, ?_⟩
    rcases parts_snd_eq (shortest b) with h | h
    · omega
    · rw [h]
      omega

/-- What is read back is not too large. -/
theorem readBack_lt_bound (he : b.exponent ≤ 971) : readBack b < bound := by
  obtain ⟨hm64, hlo, _⟩ := written_numeral_mem hc he
  unfold readBack
  rcases lt_or_ge (numberStyle.numeral b).written.2 0 with hneg | hpos
  · exact readSize_lt_bound_of_neg hm64 hlo hneg
  · -- zero is written with a negative power of ten
    have hm : 0 < b.mantissa := by
      rw [Nat.pos_iff_ne_zero]
      intro hm
      rw [Style.written_numeral_zero _ hm] at hpos
      exact absurd hpos (by decide)
    rw [Style.written_numeral _ hm (wellFormed_shortest hc hm).ne_nil] at hpos ⊢
    rcases parts_snd_eq (shortest b) with h | h
    · omega
    · rw [h] at hpos ⊢
      exact readSize_shortest_lt_bound hc hm he hpos

/-- What is written for a finite double is read as a double with its sign and the size
`readBack`. -/
theorem float?_numeral (he : b.exponent ≤ 971) :
    ∃ y, (numberStyle.numeral b).float? = some y ∧ Denotes y b.negative (readBack b) := by
  obtain ⟨hm64, hlo, hhi⟩ := written_numeral_mem hc he
  obtain ⟨y, hy, hden⟩ := Numeral.float?_eq_some hm64 (natAbs_writtenExponent_lt hc he) hlo hhi
    (readBack_lt_bound hc he)
  rw [Style.negative_numeral] at hden
  exact ⟨y, hy, hden⟩

end

/-! ## When nothing is lost -/

theorem nearest_pow_eq {k : ℕ} (hk : k ≤ 22) : Double.nearest (10 ^ k) = 10 ^ k := by
  have hten : (10 : ℚ) ^ k = (5 ^ k : ℕ) * 2 ^ (k : ℤ) := by
    rw [zpow_natCast, Nat.cast_pow, ← mul_pow]
    norm_num
  have hpow : 5 ^ k ≤ 5 ^ 22 := Nat.pow_le_pow_right (by decide) hk
  rw [hten]
  exact Double.nearest_eq_self (by omega) (by omega)

/-- If the integer has at most 53 bits and the power of ten is a double, then there is one rounding,
and it gives the double back. -/
theorem readBack_eq_size {b : Binary} (hc : IsCanonical b.mantissa b.exponent)
    (hbits : (numberStyle.numeral b).written.1 < 2 ^ 53)
    (hpower : (numberStyle.numeral b).written.2.natAbs ≤ 22) : readBack b = size b := by
  have hself : Double.nearest ((numberStyle.numeral b).written.1)
      = (numberStyle.numeral b).written.1 := by
    simpa using Double.nearest_eq_self hbits (q := 0) (by decide)
  have hscaled : readBack b = Double.nearest ((numberStyle.numeral b).written.1
      * 10 ^ (numberStyle.numeral b).written.2) := by
    unfold readBack readSize scaledSize
    rw [hself, nearest_pow_eq hpower]
    split
    · next hpos => rw [← zpow_natCast, Int.natAbs_of_nonneg hpos]
    · rw [if_pos (by omega), div_eq_mul_inv, ← zpow_natCast, ← zpow_neg]
      congr 3
      omega
  rw [hscaled]
  rcases Nat.eq_zero_or_pos b.mantissa with hm | hm
  · rw [Style.written_numeral_zero _ hm, Double.size_eq_zero hm, Nat.cast_zero, zero_mul,
      Double.nearest_zero]
  · have hne := (wellFormed_shortest hc hm).ne_nil
    rw [Style.written_numeral _ hm hne, Style.parts_value _ hne, nearest_value_shortest hc hm]

end AlertRegistry.Json
