import AlertRegistry.Proofs.Double.Value

/-!
# Doubles that are integers

A finite double is a rational number, its `value`. It is an integer exactly if it is found to be
one, and then it is the integer that is left when it is cut off (`value_eq_intCast_iff`). A large
double has no bits behind the point, so that it is an integer in any case (`Denotes.exists_natCast`).
-/

namespace AlertRegistry.Double

open Decimal (Binary)

/-- The number that a finite double is. -/
def value (b : Binary) : ℚ :=
  if b.negative then -size b else size b

/-- The double is the number. -/
def Equals (x : Float) (q : ℚ) : Prop :=
  ∃ b, Binary.ofFloat? x = some b ∧ value b = q

theorem Denotes.equals {x : Float} {negative : Bool} {q : ℚ} (h : Denotes x negative q) :
    Equals x (if negative then -q else q) := by
  obtain ⟨b, hb, rfl, rfl⟩ := h
  exact ⟨b, hb, rfl⟩

/-! ## Sizes that are natural numbers -/

/-- The size without its bits behind the point. -/
def whole (b : Binary) : ℕ :=
  if 0 ≤ b.exponent then b.mantissa * 2 ^ b.exponent.toNat
  else b.mantissa / 2 ^ (-b.exponent).toNat

theorem truncate_eq (b : Binary) :
    b.truncate = if b.negative then -(whole b : ℤ) else whole b :=
  rfl

theorem size_eq_natCast_iff_whole {b : Binary} {n : ℕ} :
    size b = n ↔ b.isIntegral = true ∧ whole b = n := by
  have hintegral : b.isIntegral = true
      ↔ 0 ≤ b.exponent ∨ b.mantissa % 2 ^ (-b.exponent).toNat = 0 := by
    show (decide (0 ≤ b.exponent) || b.mantissa % 2 ^ (-b.exponent).toNat == 0) = true ↔ _
    rw [Bool.or_eq_true, decide_eq_true_eq, beq_iff_eq]
  rw [size_eq_natCast_iff, hintegral, whole]
  by_cases hexp : 0 ≤ b.exponent
  · have hzero : (-b.exponent).toNat = 0 := by omega
    simp [hexp, hzero]
  · have hzero : b.exponent.toNat = 0 := by omega
    have hunit : 0 < 2 ^ (-b.exponent).toNat := Nat.two_pow_pos _
    rw [if_neg hexp, or_iff_right hexp, hzero, pow_zero, mul_one]
    constructor
    · intro h
      rw [h]
      exact ⟨Nat.mul_mod_left .., Nat.mul_div_left _ hunit⟩
    · rintro ⟨hmod, rfl⟩
      exact (Nat.div_mul_cancel (Nat.dvd_of_mod_eq_zero hmod)).symm

/-! ## Values that are integers -/

/-- A finite double is an integer exactly if it is taken for one, and it is the one that is left
when it is cut off. -/
theorem value_eq_intCast_iff {b : Binary} {n : ℤ} :
    value b = n ↔ b.isIntegral = true ∧ b.truncate = n := by
  rw [truncate_eq]
  unfold value
  have hsize := size_nonneg b
  cases b.negative with
  | false =>
    constructor
    · intro h
      have hn : 0 ≤ n := by exact_mod_cast (h ▸ hsize : (0 : ℚ) ≤ n)
      obtain ⟨k, rfl⟩ := Int.eq_ofNat_of_zero_le hn
      obtain ⟨hintegral, hwhole⟩ := size_eq_natCast_iff_whole.1 (mod_cast h)
      exact ⟨hintegral, congrArg (fun m : ℕ => (m : ℤ)) hwhole⟩
    · rintro ⟨hintegral, rfl⟩
      exact_mod_cast size_eq_natCast_iff_whole.2 ⟨hintegral, rfl⟩
  | true =>
    constructor
    · intro h
      have h : -size b = n := h
      have hn : n ≤ 0 := by
        have : (n : ℚ) ≤ 0 := by linarith
        exact_mod_cast this
      obtain ⟨k, hk⟩ := Int.eq_ofNat_of_zero_le (neg_nonneg.2 hn)
      obtain rfl : n = -(k : ℤ) := by omega
      obtain ⟨hintegral, hwhole⟩ := size_eq_natCast_iff_whole (n := k).1 (by
        push_cast at h
        linarith)
      exact ⟨hintegral, congrArg (fun m : ℕ => -(m : ℤ)) hwhole⟩
    · rintro ⟨hintegral, rfl⟩
      show -size b = ((-(whole b : ℤ) : ℤ) : ℚ)
      rw [size_eq_natCast_iff_whole.2 ⟨hintegral, rfl⟩]
      push_cast
      rfl

/-- A double with all its bits before the point is an integer. -/
theorem Denotes.exists_natCast {x : Float} {negative : Bool} {q : ℚ} (h : Denotes x negative q)
    (hq : 2 ^ 53 ≤ q) : ∃ n : ℕ, q = n := by
  obtain ⟨b, hb, -, rfl⟩ := h
  have hc := (isCanonical_of_ofFloat? hb).1
  have hexp : 0 ≤ b.exponent := by
    by_contra hneg
    have hunit : (2 : ℚ) ^ b.exponent ≤ 1 := by
      simpa using zpow_le_zpow_right₀ (one_le_two : (1 : ℚ) ≤ 2) (by omega : b.exponent ≤ 0)
    have hlt : size b < 2 ^ 53 * 1 :=
      mul_lt_mul (mod_cast hc.mantissa) hunit (zpow_two_pos _) (by norm_num)
    linarith
  refine ⟨b.mantissa * 2 ^ b.exponent.toNat, size_eq_natCast_iff.2 ?_⟩
  rw [show (-b.exponent).toNat = 0 by omega, pow_zero, mul_one]

end AlertRegistry.Double
