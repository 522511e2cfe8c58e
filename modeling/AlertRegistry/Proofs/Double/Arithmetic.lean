import AlertRegistry.Proofs.Double.Rounding
import Mathlib

/-!
# Rounding in the arithmetic of doubles

The arithmetic of doubles works on a mantissa with two more bits and on the accuracy of a mantissa.
Both say where a rational lies between two neighbouring integers (`Holds`, `Locates`), and that is
all that rounding needs: what `roundWithAccuracy` makes of a mantissa that locates `y` is the double
next to `y * 2 ^ e` (`roundWithAccuracy_eq`). So a product, a quotient, an integer and a power of
ten are rounded as the exact rational is (`div_finite`, `ofNat_eq`, `ofScientific_eq`).
-/

namespace AlertRegistry.Double

open Float.Model (Format totalExponent)
open Float.Model.UnpackedFloat (Sign Accuracy ExtendedMantissa)

/-! ## Mantissas with two more bits -/

/-- The mantissa is the integer part of a rational, and its two more bits tell how the fraction
compares with zero and one half. -/
def Holds (em : ExtendedMantissa) (y : ℚ) : Prop :=
  match em.roundBit, em.stickyBit with
  | false, false => y = em.mantissa
  | false, true => em.mantissa < y ∧ y < em.mantissa + 1 / 2
  | true, false => y = em.mantissa + 1 / 2
  | true, true => em.mantissa + 1 / 2 < y ∧ y < em.mantissa + 1

theorem Holds.nonneg {em : ExtendedMantissa} {y : ℚ} (h : Holds em y) : 0 ≤ y := by
  obtain ⟨m, r, s⟩ := em
  have hm : (0 : ℚ) ≤ m := Nat.cast_nonneg m
  cases r <;> cases s <;> simp only [Holds] at h <;> linarith

/-- The bits are all that rounding to an integer needs. -/
theorem Holds.roundedMantissa {em : ExtendedMantissa} {y : ℚ} (h : Holds em y) :
    em.roundedMantissa = roundEven y := by
  have hy := h.nonneg
  obtain ⟨m, r, s⟩ := em
  cases r <;> cases s <;> simp only [Holds] at h
  · show m = roundEven y
    rw [h, roundEven_natCast]
  · show m = roundEven y
    exact (roundEven_eq_of_abs_lt hy (abs_lt.2 ⟨by linarith, by linarith⟩)).symm
  · show m + m % 2 = roundEven y
    rw [h, roundEven_half]
  · show m + 1 = roundEven y
    refine (roundEven_eq_of_abs_lt hy (abs_lt.2 ?_)).symm
    push_cast
    constructor <;> linarith

/-- Shifting out a bit halves the rational. -/
theorem Holds.shiftRightOne {em : ExtendedMantissa} {y : ℚ} (h : Holds em y) :
    Holds em.shiftRightOne (y / 2) := by
  obtain ⟨m, r, s⟩ := em
  have hm : (m : ℚ) = 2 * (m / 2 : ℕ) + (m % 2 : ℕ) := by
    exact_mod_cast (Nat.div_add_mod m 2).symm
  -- the bit that is shifted out is the new round bit, and the old two make the sticky bit
  have hround : (m % 2 != 0) = decide (m % 2 = 1) := by
    rcases Nat.mod_two_eq_zero_or_one m with h2 | h2 <;> rw [h2] <;> rfl
  unfold Holds ExtendedMantissa.shiftRightOne
  rw [hround]
  rcases Nat.mod_two_eq_zero_or_one m with h2 | h2
  · rw [h2] at hm ⊢
    push_cast at hm
    cases r <;> cases s <;> simp only [Holds] at h
    · show y / 2 = (m / 2 : ℕ)
      linarith
    all_goals
      show ((m / 2 : ℕ) : ℚ) < y / 2 ∧ y / 2 < (m / 2 : ℕ) + 1 / 2
      constructor <;> linarith
  · rw [h2] at hm ⊢
    push_cast at hm
    cases r <;> cases s <;> simp only [Holds] at h
    · show y / 2 = (m / 2 : ℕ) + 1 / 2
      linarith
    all_goals
      show ((m / 2 : ℕ) : ℚ) + 1 / 2 < y / 2 ∧ y / 2 < (m / 2 : ℕ) + 1
      constructor <;> linarith

theorem Holds.shiftRight {em : ExtendedMantissa} {y : ℚ} (h : Holds em y) (n : ℕ) :
    Holds (em >>> n) (y / 2 ^ n) := by
  show Holds (n.repeat ExtendedMantissa.shiftRightOne em) (y / 2 ^ n)
  induction n with
  | zero =>
    rw [pow_zero, div_one]
    exact h
  | succ n ih =>
    show Holds (n.repeat ExtendedMantissa.shiftRightOne em).shiftRightOne _
    rw [pow_succ, ← div_div]
    exact ih.shiftRightOne

/-- The rational that a mantissa and its accuracy stand for. -/
def Locates (m : ℕ) (acc : Accuracy) (y : ℚ) : Prop :=
  Holds (.ofMantissaAndAccuracy m acc) y

theorem locates_exact (m : ℕ) : Locates m .exact m := rfl

theorem Locates.le_lt {m : ℕ} {acc : Accuracy} {y : ℚ} (h : Locates m acc y) :
    m ≤ y ∧ y < m + 1 := by
  unfold Locates at h
  cases acc with
  | exact =>
    have h : y = m := h
    constructor <;> linarith
  | inexact o =>
    cases o with
    | lt =>
      have h : (m : ℚ) < y ∧ y < m + 1 / 2 := h
      constructor <;> linarith
    | eq =>
      have h : y = (m : ℚ) + 1 / 2 := h
      constructor <;> linarith
    | gt =>
      have h : (m : ℚ) + 1 / 2 < y ∧ y < m + 1 := h
      constructor <;> linarith

/-! ## Rounding to a format -/

/-- The double that is not infinite and has the size `nearest x`, in its canonical parts. -/
def unpackedOf (s : Sign) (x : ℚ) : Float.Model.UnpackedFloat :=
  let N := roundEven (x / 2 ^ quantum x)
  if h : N = 0 then .zero s
  else if N = 2 ^ 53 then .finite s (2 ^ 52) (quantum x + 1) (by positivity)
  else .finite s N (quantum x) (Nat.pos_of_ne_zero h)

theorem targetExponent_totalExponent (m : ℕ) (e : ℤ) :
    Format.binary64.targetExponent (totalExponent m e) = max (m.log2 + e - 52) (-1074) := by
  show max ((m.log2 : ℤ) + 1 + e - 53) (-1074) = _
  congr 1
  ring

/-- The exponent to which a number is shifted is that of its spacing. -/
theorem targetExponent_eq_quantum {m : ℕ} {e : ℤ} {y : ℚ} (hpos : 0 < y) (hlo : (m : ℚ) ≤ y)
    (hhi : y < m + 1) (hbits : 2 ^ 52 ≤ m ∨ e ≤ -1074) :
    Format.binary64.targetExponent (totalExponent m e) = quantum (y * 2 ^ e) := by
  rw [targetExponent_totalExponent]
  rcases Nat.eq_zero_or_pos m with rfl | hm
  · -- less than the least spacing
    have he : e ≤ -1074 := by omega
    have hsmall : y * 2 ^ e < 2 ^ (53 + (-1074) : ℤ) := by
      have h1 : y * 2 ^ e < 1 * 2 ^ e :=
        mul_lt_mul_of_pos_right (by simpa using hhi) (zpow_two_pos e)
      have h2 : (2 : ℚ) ^ e ≤ 2 ^ (53 + (-1074) : ℤ) := zpow_le_zpow_right₀ one_le_two (by omega)
      linarith
    rw [quantum_eq (mul_pos hpos (zpow_two_pos e)) le_rfl hsmall (.inl rfl)]
    rw [Nat.log2_zero]
    omega
  · -- a rational has as many bits before the point as its integer part
    have hlog : Int.log 2 (y * 2 ^ e) = m.log2 + e := by
      have hx := mul_pos hpos (zpow_two_pos e)
      have hle : ((2 : ℕ) : ℚ) ^ ((m.log2 : ℤ) + e) ≤ y * 2 ^ e := by
        rw [Nat.cast_ofNat, zpow_add₀ two_ne_zero, zpow_natCast]
        have hself : ((2 ^ m.log2 : ℕ) : ℚ) ≤ m := mod_cast Nat.log2_self_le hm.ne'
        push_cast at hself
        exact mul_le_mul_of_nonneg_right (hself.trans hlo) (zpow_two_pos e).le
      have hlt : y * 2 ^ e < ((2 : ℕ) : ℚ) ^ ((m.log2 : ℤ) + e + 1) := by
        rw [show (m.log2 : ℤ) + e + 1 = ((m.log2 + 1 : ℕ) : ℤ) + e by push_cast; ring,
          Nat.cast_ofNat, zpow_add₀ two_ne_zero, zpow_natCast]
        have hsucc : ((m + 1 : ℕ) : ℚ) ≤ (2 ^ (m.log2 + 1) : ℕ) :=
          mod_cast Nat.lt_log2_self
        push_cast at hsucc
        exact mul_lt_mul_of_pos_right (hhi.trans_le (mod_cast hsucc)) (zpow_two_pos e)
      have h1 := (Int.zpow_le_iff_le_log one_lt_two hx).1 hle
      have h2 := (Int.lt_zpow_iff_log_lt one_lt_two hx).1 hlt
      omega
    unfold quantum
    rw [hlog]

/-- A second shift only makes room for a mantissa that rounding has made too long. -/
theorem shiftToTargetExponent_rounded {N : ℕ} (hN : N ≤ 2 ^ 53) {q : ℤ} (hq : -1074 ≤ q) :
    Float.Model.UnpackedFloat.shiftToTargetExponent .binary64 N q .exact
      = if N = 2 ^ 53 then (⟨2 ^ 52, false, false⟩, q + 1) else (⟨N, false, false⟩, q) := by
  unfold Float.Model.UnpackedFloat.shiftToTargetExponent
  rw [targetExponent_totalExponent]
  split
  · next h =>
    subst h
    have hlog : (2 ^ 53 : ℕ).log2 = 53 := Nat.log2_two_pow
    have htarget : max (((2 ^ 53 : ℕ).log2 : ℤ) + q - 52) (-1074) = q + 1 := by
      rw [hlog]
      omega
    have hshift : (q + 1 - q).toNat = 1 := by omega
    unfold Float.Model.UnpackedFloat.shiftToExponent
    rw [htarget]
    dsimp only
    rw [hshift]
    rfl
  · next h =>
    have hlog : N.log2 ≤ 52 := by
      rcases Nat.eq_zero_or_pos N with rfl | hpos
      · decide
      · have : N.log2 < 53 := (Nat.log2_lt hpos.ne').2 (by omega)
        omega
    have hshift : (max ((N.log2 : ℤ) + q - 52) (-1074) - q).toNat = 0 := by omega
    unfold Float.Model.UnpackedFloat.shiftToExponent
    dsimp only
    rw [hshift, Nat.cast_zero, add_zero]
    rfl

/-- Rounding of a located rational, if its mantissa has at least the bits that are kept. -/
theorem roundWithAccuracy_eq (s : Sign) {m : ℕ} {e : ℤ} {acc : Accuracy} {y : ℚ} (hpos : 0 < y)
    (h : Locates m acc y) (hbits : 2 ^ 52 ≤ m ∨ e ≤ -1074) :
    Float.Model.UnpackedFloat.roundWithAccuracy .binary64 s m e acc
      = unpackedOf s (y * 2 ^ e) := by
  obtain ⟨hlo, hhi⟩ := h.le_lt
  have htarget := targetExponent_eq_quantum hpos hlo hhi hbits
  -- so the first shift is one to the right, and nothing of `y` is lost before it
  have hle : e ≤ quantum (y * 2 ^ e) := by
    rw [← htarget, targetExponent_totalExponent]
    rcases hbits with hm | he
    · have : 52 ≤ m.log2 := (Nat.le_log2 (by omega)).2 hm
      omega
    · omega
  obtain ⟨k, hk⟩ := Int.eq_ofNat_of_zero_le (sub_nonneg.2 hle)
  have hquot : y / 2 ^ k = y * 2 ^ e / 2 ^ quantum (y * 2 ^ e) := by
    rw [mul_div_assoc, ← zpow_sub₀ two_ne_zero, div_eq_mul_inv, ← zpow_natCast, ← zpow_neg]
    congr 2
    omega
  have hfirst : Float.Model.UnpackedFloat.shiftToTargetExponent .binary64 m e acc
      = (ExtendedMantissa.ofMantissaAndAccuracy m acc >>> k, quantum (y * 2 ^ e)) := by
    unfold Float.Model.UnpackedFloat.shiftToTargetExponent
      Float.Model.UnpackedFloat.shiftToExponent
    dsimp only
    rw [htarget, hk]
    congr 1
    show e + (k : ℤ) = _
    omega
  have hrounded : (ExtendedMantissa.ofMantissaAndAccuracy m acc >>> k).roundedMantissa
      = roundEven (y * 2 ^ e / 2 ^ quantum (y * 2 ^ e)) := by
    rw [(h.shiftRight k).roundedMantissa, hquot]
  have hN : roundEven (y * 2 ^ e / 2 ^ quantum (y * 2 ^ e)) ≤ 2 ^ 53 :=
    roundEven_le (div_nonneg (mul_pos hpos (zpow_two_pos e)).le (zpow_two_pos _).le)
      (mod_cast (div_quantum_lt (y * 2 ^ e)).le)
  unfold Float.Model.UnpackedFloat.roundWithAccuracy unpackedOf
  rw [hfirst]
  dsimp only
  rw [hrounded, shiftToTargetExponent_rounded hN (le_quantum _)]
  -- rounding up to the next power of two leaves one bit too many
  by_cases hfull : roundEven (y * 2 ^ e / 2 ^ quantum (y * 2 ^ e)) = 2 ^ 53
  · simp only [hfull, if_true]
    rfl
  · simp only [hfull, if_false]

/-! ## Quotients -/

/-- The remainder of a division tells where the quotient is. -/
theorem locates_div (n : ℕ) {d : ℕ} (hd : 0 < d) :
    Locates (n / d) (Float.Model.UnpackedFloat.accuracyOfFraction (n % d) d) (n / d) := by
  have hdq : (0 : ℚ) < d := mod_cast hd
  have hlt : n % d < d := Nat.mod_lt n hd
  have hsplit : (n : ℚ) / d = (n / d : ℕ) + (n % d : ℕ) / d := by
    have h : (n : ℚ) = d * (n / d : ℕ) + (n % d : ℕ) := mod_cast (Nat.div_add_mod n d).symm
    rw [div_eq_iff hdq.ne', add_mul, div_mul_cancel₀ _ hdq.ne']
    linarith
  rw [hsplit]
  unfold Float.Model.UnpackedFloat.accuracyOfFraction
  by_cases hr : n % d = 0
  · rw [if_pos hr, hr, Nat.cast_zero, zero_div, add_zero]
    exact locates_exact _
  · rw [if_neg hr]
    have hfrac : (0 : ℚ) < (n % d : ℕ) / d := div_pos (mod_cast Nat.pos_of_ne_zero hr) hdq
    rcases lt_trichotomy (2 * (n % d)) d with h | h | h
    · rw [Nat.compare_eq_lt.2 h]
      have hhalf : ((n % d : ℕ) : ℚ) / d < 1 / 2 := by
        rw [div_lt_div_iff₀ hdq two_pos]
        have : ((2 * (n % d) : ℕ) : ℚ) < d := mod_cast h
        push_cast at this
        linarith
      show ((n / d : ℕ) : ℚ) < _ ∧ _ < ((n / d : ℕ) : ℚ) + 1 / 2
      constructor <;> linarith
    · rw [Nat.compare_eq_eq.2 h]
      have hhalf : ((n % d : ℕ) : ℚ) / d = 1 / 2 := by
        rw [div_eq_div_iff hdq.ne' two_ne_zero]
        have : ((2 * (n % d) : ℕ) : ℚ) = d := mod_cast h
        push_cast at this
        linarith
      show ((n / d : ℕ) : ℚ) + _ = ((n / d : ℕ) : ℚ) + 1 / 2
      rw [hhalf]
    · rw [Nat.compare_eq_gt.2 h]
      have hhalf : 1 / 2 < ((n % d : ℕ) : ℚ) / d := by
        rw [div_lt_div_iff₀ two_pos hdq]
        have : (d : ℚ) < (2 * (n % d) : ℕ) := mod_cast h
        push_cast at this
        linarith
      have hone : ((n % d : ℕ) : ℚ) / d < 1 := (div_lt_one hdq).2 (mod_cast hlt)
      show ((n / d : ℕ) : ℚ) + 1 / 2 < _ ∧ _ < ((n / d : ℕ) : ℚ) + 1
      constructor <;> linarith

theorem two_pow_le_mul_two_pow {m s j : ℕ} (hm : m ≠ 0) (h : j ≤ m.log2 + s) :
    2 ^ j ≤ m * 2 ^ s :=
  calc 2 ^ j ≤ 2 ^ (m.log2 + s) := Nat.pow_le_pow_right two_pos h
    _ = 2 ^ m.log2 * 2 ^ s := Nat.pow_add ..
    _ ≤ m * 2 ^ s := Nat.mul_le_mul_right _ (Nat.log2_self_le hm)

/-- The quotient is computed with at least the bits that are kept. -/
theorem bits_div {m₁ m₂ s : ℕ} {e₁ e₂ t : ℤ} (hm₁ : 0 < m₁) (hm₂ : 0 < m₂)
    (ht : t ≤ Format.binary64.targetExponent (totalExponent m₁ e₁ - totalExponent m₂ e₂))
    (hs : (s : ℤ) = e₁ - e₂ - t) : 2 ^ 52 ≤ m₁ * 2 ^ s / m₂ ∨ t ≤ -1074 := by
  by_cases hlow : t ≤ -1074
  · exact .inr hlow
  · left
    have htarget : t ≤ max (((m₁.log2 : ℤ) + 1 + e₁ - (m₂.log2 + 1 + e₂)) - 53) (-1074) := ht
    have hbits : m₂.log2 + 1 + 52 ≤ m₁.log2 + s := by omega
    rw [Nat.le_div_iff_mul_le hm₂]
    calc 2 ^ 52 * m₂ ≤ 2 ^ 52 * 2 ^ (m₂.log2 + 1) :=
          Nat.mul_le_mul_left _ (Nat.lt_log2_self).le
      _ = 2 ^ (m₂.log2 + 1 + 52) := by
        rw [← Nat.pow_add]
        congr 1
        omega
      _ ≤ m₁ * 2 ^ s := two_pow_le_mul_two_pow hm₁.ne' hbits

theorem div_finite (s₁ s₂ : Sign) {m₁ m₂ : ℕ} (e₁ e₂ : ℤ) (hm₁ : 0 < m₁) (hm₂ : 0 < m₂) :
    Float.Model.UnpackedFloat.div .binary64 (.finite s₁ m₁ e₁ hm₁) (.finite s₂ m₂ e₂ hm₂)
      = unpackedOf (s₁ / s₂) (m₁ * 2 ^ e₁ / (m₂ * 2 ^ e₂)) := by
  let t := min (e₁ - e₂)
    (Format.binary64.targetExponent (totalExponent m₁ e₁ - totalExponent m₂ e₂))
  obtain ⟨k, hk⟩ := Int.eq_ofNat_of_zero_le (sub_nonneg.2 (min_le_left (e₁ - e₂)
    (Format.binary64.targetExponent (totalExponent m₁ e₁ - totalExponent m₂ e₂))))
  have hk : e₁ - e₂ - t = (k : ℤ) := hk
  have hcore : Float.Model.UnpackedFloat.divCore .binary64 m₁ e₁ m₂ e₂
      = (m₁ * 2 ^ k / m₂, t,
        Float.Model.UnpackedFloat.accuracyOfFraction (m₁ * 2 ^ k % m₂) m₂) := by
    unfold Float.Model.UnpackedFloat.divCore
    show (m₁ <<< (e₁ - e₂ - t).toNat / m₂, t, Float.Model.UnpackedFloat.accuracyOfFraction
      (m₁ <<< (e₁ - e₂ - t).toNat % m₂) m₂) = _
    rw [hk, Int.toNat_natCast, Nat.shiftLeft_eq]
  have hloc := locates_div (m₁ * 2 ^ k) hm₂
  have hbits := bits_div hm₁ hm₂ (min_le_right (e₁ - e₂) _) hk.symm
  have hpos : (0 : ℚ) < ((m₁ * 2 ^ k : ℕ) : ℚ) / m₂ :=
    div_pos (mod_cast Nat.mul_pos hm₁ (Nat.two_pow_pos k)) (mod_cast hm₂)
  show (match Float.Model.UnpackedFloat.divCore .binary64 m₁ e₁ m₂ e₂ with
    | (m, e, acc) => Float.Model.UnpackedFloat.roundWithAccuracy .binary64 (s₁ / s₂) m e acc) = _
  rw [hcore]
  dsimp only
  rw [roundWithAccuracy_eq _ hpos hloc hbits]
  congr 1
  -- the power of two by which the numerator was scaled is taken back
  have hscale : (2 : ℚ) ^ k * 2 ^ t = 2 ^ e₁ / 2 ^ e₂ := by
    rw [← zpow_natCast, ← zpow_add₀ two_ne_zero, ← zpow_sub₀ two_ne_zero]
    congr 1
    omega
  push_cast
  rw [div_mul_eq_mul_div, mul_assoc, hscale, mul_div_assoc', div_div, mul_comm (2 ^ e₂ : ℚ)]

/-! ## Integers and powers of ten -/

/-- An integer is rounded as it is. -/
theorem ofNat_eq (n : ℕ) : Float.Model.UnpackedFloat.ofNat .binary64 n
    = if n = 0 then .zero .positive else unpackedOf .positive n := by
  unfold Float.Model.UnpackedFloat.ofNat Float.Model.UnpackedFloat.ofInt
    Float.Model.UnpackedFloat.normalize
  by_cases hn : n = 0
  · subst hn
    rfl
  · have hpos : 0 < n := Nat.pos_of_ne_zero hn
    have hcompare : compare (n : ℤ) 0 = .gt := by
      rw [Int.compare_eq_gt]
      omega
    rw [hcompare, if_neg hn]
    dsimp only
    rw [Int.toNat_natCast]
    unfold Float.Model.UnpackedFloat.round Float.Model.UnpackedFloat.decreaseExponent
    rw [targetExponent_totalExponent]
    dsimp only
    -- a short integer is shifted to the left first, so that it has the bits that are kept
    let k := (0 - max ((n.log2 : ℤ) + 0 - 52) (-1074)).toNat
    show Float.Model.UnpackedFloat.roundWithAccuracy .binary64 .positive (n <<< k) (0 - k) .exact
      = _
    have hbits : 2 ^ 52 ≤ n * 2 ^ k := two_pow_le_mul_two_pow hn (by omega)
    have hm : (0 : ℚ) < (n * 2 ^ k : ℕ) := mod_cast Nat.mul_pos hpos (Nat.two_pow_pos k)
    rw [Nat.shiftLeft_eq, roundWithAccuracy_eq _ hm (locates_exact _) (.inl hbits)]
    congr 1
    push_cast
    rw [zero_sub, zpow_neg, zpow_natCast, mul_inv_cancel_right₀ (by positivity)]

/-- An integer times a power of ten is rounded as it is. -/
theorem ofScientific_eq {m k : ℕ} (hm : 0 < m) (hk : k ≤ 308) :
    Float.Model.UnpackedFloat.ofScientific .binary64 m (Int.ofNat k)
      = unpackedOf .positive (m * 10 ^ k) := by
  have hbits : 2 ^ 52 ≤ (2 ^ 53 * m) * 10 ^ k := by
    have hpos : 0 < m * 10 ^ k := by positivity
    calc 2 ^ 52 ≤ 2 ^ 53 * (m * 10 ^ k) := by omega
      _ = (2 ^ 53 * m) * 10 ^ k := (Nat.mul_assoc ..).symm
  have hpos : (0 : ℚ) < ((2 ^ 53 * m) * 10 ^ k : ℕ) := mod_cast (by positivity)
  unfold Float.Model.UnpackedFloat.ofScientific
  rw [dif_neg hm.ne', if_neg (by simp; omega), if_neg (by simp; omega), if_pos (by simp)]
  show Float.Model.UnpackedFloat.roundWithAccuracy .binary64 .positive (m <<< 53 * 10 ^ k)
    (-53 + 0) .exact = _
  rw [Nat.shiftLeft_eq, Nat.mul_comm m, roundWithAccuracy_eq _ hpos (locates_exact _) (.inl hbits)]
  congr 1
  -- the integer has been scaled by `2 ^ 53`, which the exponent takes back
  rw [add_zero, zpow_neg, zpow_ofNat]
  push_cast
  field_simp
  norm_num

end AlertRegistry.Double
