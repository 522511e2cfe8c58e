import Mathlib.Algebra.Order.Floor.Ring
import Mathlib.Data.Int.Log
import Mathlib.Data.Rat.Floor
import Mathlib.Tactic.FieldSimp
import Mathlib.Tactic.Linarith
import Mathlib.Tactic.Positivity
import Mathlib.Tactic.Ring

/-!
# Rounding to doubles

The size of a finite double is `N * 2 ^ q` with `N < 2 ^ 53` and `-1074 ≤ q`. A positive rational
`x` has its neighbours among the doubles `quantum x` apart: two to the power that leaves 53 bits
before the point of `x / 2 ^ quantum x`, and not less than the least one. So the double nearest to
`x`, the even one of two that are equally near, is `nearest x`, if it is not too large for a double.

* `nearest` does not move doubles (`nearest_eq_self`) and keeps the order (`nearest_mono`).
* It moves nothing by more than half a quantum, so it keeps what is known about `x` up to that
  (`nearest_eq_of_between`).
-/

namespace AlertRegistry.Double

/-! ## Rounding to integers -/

/-- The integer nearest to a rational that is not negative, the even one of two. -/
def roundEven (x : ℚ) : ℕ :=
  let n := ⌊x⌋₊
  if x - n < 1 / 2 then n
  else if 1 / 2 < x - n then n + 1
  else n + n % 2

/-- Rounding moves nothing by more than half a unit. -/
theorem abs_roundEven_sub_le {x : ℚ} (hx : 0 ≤ x) : |(roundEven x : ℚ) - x| ≤ 1 / 2 := by
  have hlo := Nat.floor_le hx
  have hhi := Nat.lt_floor_add_one x
  unfold roundEven
  dsimp only
  rw [abs_le]
  split
  · constructor <;> linarith
  · split
    · push_cast
      constructor <;> linarith
    · -- exactly half-way, so that either neighbour is half a unit away
      rcases Nat.mod_two_eq_zero_or_one ⌊x⌋₊ with h | h
      all_goals
        rw [h]
        push_cast
        constructor <;> linarith

@[simp] theorem roundEven_natCast (n : ℕ) : roundEven n = n := by
  unfold roundEven
  rw [Nat.floor_natCast]
  dsimp only
  rw [if_pos (by norm_num)]

/-- What is less than half a unit away from an integer is rounded to it. -/
theorem roundEven_eq_of_abs_lt {x : ℚ} (hx : 0 ≤ x) {n : ℕ} (h : |x - n| < 1 / 2) :
    roundEven x = n := by
  have herr := abs_le.1 (abs_roundEven_sub_le hx)
  have hnear := abs_lt.1 h
  have hlo : (n : ℚ) < roundEven x + 1 := by linarith
  have hhi : (roundEven x : ℚ) < n + 1 := by linarith
  norm_cast at hlo hhi
  omega

/-- Half-way above an integer the even neighbour is taken. -/
theorem roundEven_half (n : ℕ) : roundEven (n + 1 / 2) = n + n % 2 := by
  have hfloor : ⌊(n : ℚ) + 1 / 2⌋₊ = n := by
    rw [Nat.floor_eq_iff (by positivity)]
    constructor <;> linarith
  unfold roundEven
  rw [hfloor]
  dsimp only
  rw [if_neg (by norm_num), if_neg (by norm_num)]

theorem roundEven_mono {x y : ℚ} (hx : 0 ≤ x) (hxy : x ≤ y) : roundEven x ≤ roundEven y := by
  rcases hxy.eq_or_lt with rfl | hlt
  · exact le_rfl
  · have hex := abs_le.1 (abs_roundEven_sub_le hx)
    have hey := abs_le.1 (abs_roundEven_sub_le (hx.trans hxy))
    -- the two errors make up a unit at most, and the arguments differ
    have h : (roundEven x : ℚ) < roundEven y + 1 := by linarith
    norm_cast at h
    omega

theorem roundEven_le {x : ℚ} (hx : 0 ≤ x) {n : ℕ} (h : x ≤ n) : roundEven x ≤ n :=
  (roundEven_mono hx h).trans_eq (roundEven_natCast n)

theorem le_roundEven {x : ℚ} {n : ℕ} (h : n ≤ x) : n ≤ roundEven x :=
  (roundEven_natCast n).symm.trans_le (roundEven_mono (Nat.cast_nonneg n) h)

/-! ## The spacing of doubles -/

/-- The exponent of the spacing of doubles around a positive rational. -/
def quantum (x : ℚ) : ℤ :=
  max (Int.log 2 x - 52) (-1074)

theorem zpow_two_pos (q : ℤ) : (0 : ℚ) < 2 ^ q := zpow_pos two_pos q

theorem le_quantum (x : ℚ) : -1074 ≤ quantum x := le_max_right _ _

/-- Before the point there are at most 53 bits. -/
theorem div_quantum_lt (x : ℚ) : x / 2 ^ quantum x < 2 ^ 53 := by
  rw [div_lt_iff₀ (zpow_two_pos _)]
  have hlog := Int.lt_zpow_succ_log_self (one_lt_two) x
  have hle : Int.log 2 x + 1 ≤ 53 + quantum x := by
    have := le_max_left (Int.log 2 x - 52) (-1074)
    unfold quantum
    omega
  calc x < (2 : ℚ) ^ (Int.log 2 x + 1) := by exact_mod_cast hlog
    _ ≤ 2 ^ (53 + quantum x) := zpow_le_zpow_right₀ one_le_two hle
    _ = 2 ^ 53 * 2 ^ quantum x := by
      rw [zpow_add₀ two_ne_zero]
      norm_num

/-- Above the least spacing there are exactly 53 bits. -/
theorem le_div_quantum {x : ℚ} (hx : 0 < x) (hq : quantum x ≠ -1074) :
    2 ^ 52 ≤ x / 2 ^ quantum x := by
  rw [le_div_iff₀ (zpow_two_pos _)]
  have hlog := Int.zpow_log_le_self (one_lt_two) hx
  have heq : quantum x = Int.log 2 x - 52 := by
    unfold quantum at hq ⊢
    omega
  calc (2 : ℚ) ^ 52 * 2 ^ quantum x = 2 ^ (52 + quantum x) := by
        rw [zpow_add₀ two_ne_zero]
        norm_num
    _ = 2 ^ Int.log 2 x := by rw [heq, add_sub_cancel]
    _ ≤ x := by exact_mod_cast hlog

theorem quantum_mono {x y : ℚ} (hx : 0 < x) (hxy : x ≤ y) : quantum x ≤ quantum y :=
  max_le_max_right _ (sub_le_sub_right (Int.log_mono_right hx hxy) 52)

/-- The spacing is not greater than that of any 53 bits that hold the rational. -/
theorem quantum_le {x : ℚ} (hx : 0 < x) {q : ℤ} (hq : -1074 ≤ q) (h : x < 2 ^ (53 + q)) :
    quantum x ≤ q := by
  have hlog : Int.log 2 x < 53 + q := (Int.lt_zpow_iff_log_lt one_lt_two hx).1 (mod_cast h)
  unfold quantum
  omega

/-- The spacing is that of 53 bits of which the first one is set. -/
theorem quantum_eq {x : ℚ} (hx : 0 < x) {q : ℤ} (hq : -1074 ≤ q) (hhi : x < 2 ^ (53 + q))
    (hlo : q = -1074 ∨ 2 ^ (52 + q) ≤ x) : quantum x = q := by
  apply le_antisymm (quantum_le hx hq hhi)
  rcases hlo with rfl | hlo
  · exact le_quantum x
  · have hlog : 52 + q ≤ Int.log 2 x := (Int.zpow_le_iff_le_log one_lt_two hx).1 (mod_cast hlo)
    unfold quantum
    omega

/-! ## Rounding to doubles -/

/-- The double nearest to a rational that is not negative, the even one of two. -/
def nearest (x : ℚ) : ℚ :=
  roundEven (x / 2 ^ quantum x) * 2 ^ quantum x

@[simp] theorem nearest_zero : nearest 0 = 0 := by
  unfold nearest
  rw [zero_div, ← Nat.cast_zero, roundEven_natCast, Nat.cast_zero, zero_mul]

theorem nearest_nonneg (x : ℚ) : 0 ≤ nearest x :=
  mul_nonneg (Nat.cast_nonneg _) (zpow_two_pos _).le

/-- Rounding moves nothing by more than half a quantum. -/
theorem abs_nearest_sub_le {x : ℚ} (hx : 0 ≤ x) : |nearest x - x| ≤ 2 ^ quantum x / 2 := by
  have hq := zpow_two_pos (quantum x)
  have herr := abs_roundEven_sub_le (div_nonneg hx hq.le)
  have hsplit : nearest x - x
      = (roundEven (x / 2 ^ quantum x) - x / 2 ^ quantum x) * 2 ^ quantum x := by
    rw [sub_mul, div_mul_cancel₀ x hq.ne']
    rfl
  rw [hsplit, abs_mul, abs_of_pos hq]
  calc _ ≤ 1 / 2 * (2 : ℚ) ^ quantum x := mul_le_mul_of_nonneg_right herr hq.le
    _ = 2 ^ quantum x / 2 := by ring

/-- From one on, rounding adds at most one part in `2 ^ 53`. -/
theorem nearest_le_mul {x : ℚ} (hx : 1 ≤ x) : nearest x ≤ (1 + 1 / 2 ^ 53) * x := by
  have hpos : 0 < x := zero_lt_one.trans_le hx
  have hlog : 0 ≤ Int.log 2 x := (Int.zpow_le_iff_le_log one_lt_two hpos).1 (by simpa using hx)
  have hq : quantum x ≠ -1074 := by
    unfold quantum
    omega
  -- a quantum is at most one part in `2 ^ 52`, and rounding is off by half of it
  have hbits := (le_div_iff₀ (zpow_two_pos _)).1 (le_div_quantum hpos hq)
  have herr := (abs_le.1 (abs_nearest_sub_le hpos.le)).2
  linarith

theorem nearest_mono {x y : ℚ} (hx : 0 ≤ x) (hxy : x ≤ y) : nearest x ≤ nearest y := by
  rcases hx.eq_or_lt with rfl | hx
  · rw [nearest_zero]
    exact nearest_nonneg y
  · have hy := hx.trans_le hxy
    rcases (quantum_mono hx hxy).eq_or_lt with hq | hq
    · unfold nearest
      rw [← hq]
      have hpos := (zpow_two_pos (quantum x)).le
      have hdiv : x / 2 ^ quantum x ≤ y / 2 ^ quantum x := div_le_div_of_nonneg_right hxy hpos
      exact mul_le_mul_of_nonneg_right
        (mod_cast roundEven_mono (div_nonneg hx.le hpos) hdiv) hpos
    · -- the power of two between the two spacings separates the results
      have hlo : roundEven (x / 2 ^ quantum x) ≤ 2 ^ 53 :=
        roundEven_le (div_nonneg hx.le (zpow_two_pos _).le) (mod_cast (div_quantum_lt x).le)
      have hhi : 2 ^ 52 ≤ roundEven (y / 2 ^ quantum y) := by
        have hbits := le_div_quantum hy (by have := le_quantum x; omega)
        exact le_roundEven (mod_cast hbits)
      calc nearest x ≤ 2 ^ 53 * (2 : ℚ) ^ quantum x :=
            mul_le_mul_of_nonneg_right (mod_cast hlo) (zpow_two_pos _).le
        _ = 2 ^ 52 * 2 ^ (quantum x + 1) := by
          rw [zpow_add_one₀ two_ne_zero]
          ring
        _ ≤ 2 ^ 52 * 2 ^ quantum y :=
          mul_le_mul_of_nonneg_left (zpow_le_zpow_right₀ one_le_two hq) (by norm_num)
        _ ≤ nearest y := mul_le_mul_of_nonneg_right (mod_cast hhi) (zpow_two_pos _).le

/-- Doubles are not moved. -/
theorem nearest_eq_self {N : ℕ} (hN : N < 2 ^ 53) {q : ℤ} (hq : -1074 ≤ q) :
    nearest (N * 2 ^ q) = N * 2 ^ q := by
  rcases Nat.eq_zero_or_pos N with rfl | hpos
  · rw [Nat.cast_zero, zero_mul, nearest_zero]
  · have hx : (0 : ℚ) < N * 2 ^ q := mul_pos (mod_cast hpos) (zpow_two_pos q)
    have hlt : (N * 2 ^ q : ℚ) < 2 ^ (53 + q) := by
      rw [zpow_add₀ two_ne_zero]
      exact mul_lt_mul_of_pos_right (mod_cast hN) (zpow_two_pos q)
    obtain ⟨k, hk⟩ := Int.eq_ofNat_of_zero_le (sub_nonneg.2 (quantum_le hx hq hlt))
    -- in units of the spacing the double is an integer
    have hint : (N * 2 ^ q : ℚ) / 2 ^ quantum (N * 2 ^ q) = (N * 2 ^ k : ℕ) := by
      rw [mul_div_assoc, ← zpow_sub₀ two_ne_zero, hk]
      push_cast
      rfl
    unfold nearest
    rw [hint, roundEven_natCast, ← hint, div_mul_cancel₀ _ (zpow_two_pos _).ne']

/-- A natural number is a double if it has at most 53 bits before the zeros at its end. -/
theorem nearest_natCast {n : ℕ} (N k : ℕ) (hN : N < 2 ^ 53) (hn : n = N * 2 ^ k) :
    nearest n = n := by
  have hself := nearest_eq_self hN (q := k) (by omega)
  rw [zpow_natCast] at hself
  rw [hn]
  push_cast
  exact hself

/-! ## What is rounded to a double -/

/-- A mantissa and an exponent that are the ones of a double: the mantissa has 53 bits, or fewer if
the exponent is the least one. -/
structure IsCanonical (m : ℕ) (e : ℤ) : Prop where
  /-- There are at most 53 bits. -/
  mantissa : m < 2 ^ 53
  /-- The exponent is at least the least one. -/
  exponent : -1074 ≤ e
  /-- The first bit is set, above the least exponent. -/
  normal : e = -1074 ∨ 2 ^ 52 ≤ m

/-- If the spacing is that of a double, then what is at most half a quantum away from the double is
rounded to it, from exactly half a quantum only if it is even. -/
theorem nearest_eq_of_abs_le {N : ℕ} {q : ℤ} {x : ℚ} (hx : 0 ≤ x) (hq : quantum x = q)
    (h : |x / 2 ^ q - N| ≤ 1 / 2) (hodd : N % 2 = 1 → |x / 2 ^ q - N| < 1 / 2) :
    nearest x = N * 2 ^ q := by
  unfold nearest
  rw [hq]
  congr 2
  have hy : 0 ≤ x / 2 ^ q := div_nonneg hx (zpow_two_pos q).le
  rcases h.lt_or_eq with hlt | htie
  · exact roundEven_eq_of_abs_lt hy hlt
  · have heven : N % 2 = 0 := by
      by_contra hne
      exact (hodd (by omega)).ne htie
    rcases abs_cases (x / 2 ^ q - (N : ℚ)) with ⟨habs, _⟩ | ⟨habs, _⟩
    · rw [show x / 2 ^ q = N + 1 / 2 by linarith, roundEven_half, heven, add_zero]
    · -- half-way below an even integer, which is not zero
      obtain ⟨k, rfl⟩ : ∃ k, N = k + 1 := by
        cases N with
        | zero =>
          rw [Nat.cast_zero] at habs htie
          linarith
        | succ k => exact ⟨k, rfl⟩
      rw [Nat.cast_add_one] at habs htie
      rw [show x / 2 ^ q = k + 1 / 2 by linarith, roundEven_half]
      omega

/-- Below a power of two the spacing is half of that above, so that only what is at most a quarter
of the latter away is rounded to it. -/
theorem nearest_eq_of_lt_two_pow {q : ℤ} (hq : -1074 < q) {x : ℚ}
    (hlo : (2 ^ 52 - 1 / 4) * 2 ^ q ≤ x) (hlt : x < 2 ^ 52 * 2 ^ q) :
    nearest x = 2 ^ 52 * 2 ^ q := by
  have hq' := zpow_two_pos (q - 1)
  have hhalf : (2 : ℚ) ^ q = 2 * 2 ^ (q - 1) := by
    rw [zpow_sub_one₀ two_ne_zero]
    ring
  rw [hhalf] at hlo hlt ⊢
  have hx : 0 < x := lt_of_lt_of_le (by positivity) hlo
  have hspacing : quantum x = q - 1 := by
    apply quantum_eq hx (by omega)
    · rw [zpow_add₀ two_ne_zero, zpow_ofNat]
      linarith
    · right
      rw [zpow_add₀ two_ne_zero, zpow_ofNat]
      linarith
  -- in units of the smaller spacing the power of two is `2 ^ 53`, half a unit away at most
  have hdlo : ((2 ^ 53 : ℕ) : ℚ) - 1 / 2 ≤ x / 2 ^ (q - 1) := by
    rw [le_div_iff₀ hq']
    push_cast
    linarith
  have hdhi : x / 2 ^ (q - 1) ≤ (2 ^ 53 : ℕ) := by
    rw [div_le_iff₀ hq']
    push_cast
    linarith
  have hdist : |x / 2 ^ (q - 1) - (2 ^ 53 : ℕ)| ≤ 1 / 2 :=
    abs_le.2 ⟨by linarith, by linarith⟩
  rw [nearest_eq_of_abs_le hx.le hspacing hdist fun h => absurd h (by decide)]
  push_cast
  ring

/-- What lies between the half-way points to the neighbours of a double is rounded to it, and so are
the half-way points themselves if it is even. Below a power of two the neighbour is twice as
near. -/
theorem nearest_eq_of_between {N : ℕ} {q : ℤ} (h : IsCanonical N q) (hN : 0 < N) {x : ℚ}
    (hlo : (N - if N = 2 ^ 52 ∧ -1074 < q then 1 / 4 else 1 / 2 : ℚ) * 2 ^ q ≤ x)
    (hhi : x ≤ (N + 1 / 2) * 2 ^ q)
    (hodd : N % 2 = 1 → (N - 1 / 2) * 2 ^ q < x ∧ x < (N + 1 / 2) * 2 ^ q) :
    nearest x = N * 2 ^ q := by
  have hq := zpow_two_pos q
  have hcut : ((if N = 2 ^ 52 ∧ -1074 < q then 1 / 4 else 1 / 2 : ℚ)) ≤ 1 / 2 := by
    split <;> norm_num
  have hdlo : N - 1 / 2 ≤ x / 2 ^ q := by
    rw [le_div_iff₀ hq]
    exact (mul_le_mul_of_nonneg_right (by linarith) hq.le).trans hlo
  have hdhi : x / 2 ^ q ≤ N + 1 / 2 := (div_le_iff₀ hq).2 hhi
  have hx : 0 < x := by
    have hone : (1 : ℚ) ≤ N := mod_cast hN
    exact (div_pos_iff_of_pos_right hq).1 (by linarith)
  by_cases hbits : q = -1074 ∨ 2 ^ (52 + q) ≤ x
  · -- the spacing around `x` is that of the double
    have htop : x < 2 ^ (53 + q) := by
      have hmax : (N : ℚ) + 1 ≤ 2 ^ 53 := mod_cast h.mantissa
      rw [zpow_add₀ two_ne_zero, zpow_ofNat, ← div_lt_iff₀ hq]
      linarith
    refine nearest_eq_of_abs_le hx.le (quantum_eq hx h.exponent htop hbits)
      (abs_le.2 ⟨by linarith, by linarith⟩) fun hn => ?_
    have h1 := (lt_div_iff₀ hq).2 (hodd hn).1
    have h2 := (div_lt_iff₀ hq).2 (hodd hn).2
    exact abs_lt.2 ⟨by linarith, by linarith⟩
  · -- less than the power of two that is the least double of its exponent
    obtain ⟨hne, hlt⟩ := not_or.1 hbits
    rw [not_le, zpow_add₀ two_ne_zero, zpow_ofNat] at hlt
    have hexp := h.exponent
    have hpow : N = 2 ^ 52 := by
      have hge := h.normal.resolve_left hne
      have hle : (N : ℚ) < 2 ^ 52 + 1 := by
        have := (div_lt_iff₀ hq).2 hlt
        linarith
      have hle : N < 2 ^ 52 + 1 := mod_cast hle
      omega
    rw [if_pos ⟨hpow, by omega⟩] at hlo
    have hcast : (N : ℚ) = 2 ^ 52 := by
      rw [hpow]
      norm_num
    rw [hcast] at hlo ⊢
    exact nearest_eq_of_lt_two_pow (by omega) hlo hlt

end AlertRegistry.Double
