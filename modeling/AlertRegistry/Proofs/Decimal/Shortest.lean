import AlertRegistry.Decimal.Shortest
import AlertRegistry.Proofs.Double.Value
import AlertRegistry.Proofs.Text.Digits

/-!
# Shortest decimals round to their doubles

`shortest b` is a decimal between the half-way points to the neighbours of `b`, so the double
nearest to it is `b` (`nearest_value_shortest`).

The search does not fail: the value has the place `place` (`pow_leadingPlace_le`,
`lt_pow_leadingPlace`), so a double of 53 bits is not less than `10 ^ place / 2 ^ 53` times its
spacing, and a grid of 17 digits is finer than the half-way points are apart.
-/

namespace AlertRegistry.Decimal

open Double (IsCanonical size bound)

/-! ## Places -/

/-- A power of ten in whole numbers. -/
theorem ten_zpow_eq (k : ℤ) : (10 : ℚ) ^ k = 10 ^ k.toNat / 10 ^ (-k).toNat := by
  rw [eq_div_iff (by positivity), ← zpow_natCast, ← zpow_natCast, ← zpow_add₀ (by norm_num)]
  congr 1
  omega

theorem ten_zpow_pos (k : ℤ) : (0 : ℚ) < 10 ^ k := zpow_pos (by norm_num) k

/-- The width of a whole quotient is the number of its places. -/
theorem width_div_spec {n d : ℕ} (hd : 0 < d) (hle : d ≤ n) :
    0 < width (n / d) ∧ 10 ^ (width (n / d) - 1) * d ≤ n ∧ n < 10 ^ width (n / d) * d := by
  have hpos : 0 < n / d := Nat.div_pos hle hd
  refine ⟨List.length_pos_iff.2 (Text.digitsOfNat_ne_nil _), ?_, ?_⟩
  · exact (Nat.le_div_iff_mul_le hd).1 (Text.pow_length_digitsOfNat_le hpos)
  · exact (Nat.div_lt_iff_lt_mul hd).1 (Text.lt_pow_length_digitsOfNat _)

section

variable {num den : ℕ} (hnum : 0 < num) (hden : 0 < den)

include hnum hden

/-- The leading place is that of the fraction. -/
theorem leadingPlace_spec : (10 : ℚ) ^ leadingPlace num den ≤ num / den
    ∧ (num / den : ℚ) < 10 ^ (leadingPlace num den + 1) := by
  have hdq : (0 : ℚ) < den := mod_cast hden
  have hnq : (0 : ℚ) < num := mod_cast hnum
  unfold leadingPlace
  by_cases hle : den ≤ num
  · obtain ⟨hlen, hlo, hhi⟩ := width_div_spec hden hle
    rw [if_pos hle]
    generalize width (num / den) = k at *
    constructor
    · rw [le_div_iff₀ hdq, show (k : ℤ) - 1 = (k - 1 : ℕ) by omega, zpow_natCast]
      exact mod_cast hlo
    · rw [div_lt_iff₀ hdq, sub_add_cancel, zpow_natCast]
      exact mod_cast hhi
  · -- below one the places are those of the inverse
    obtain ⟨hlen, hlo, hhi⟩ := width_div_spec hnum (not_le.1 hle).le
    rw [if_neg hle]
    dsimp only
    generalize width (den / num) = k at *
    have hloq : (10 : ℚ) ^ (k - 1) * num ≤ den := mod_cast hlo
    have hhiq : (den : ℚ) < 10 ^ k * num := mod_cast hhi
    have hk : (10 : ℚ) ^ k = 10 ^ (k - 1) * 10 := by
      rw [← pow_succ, Nat.sub_add_cancel hlen]
    have hten : (0 : ℚ) < 10 ^ (k - 1) := by positivity
    have hinv : (10 : ℚ) ^ (1 - k : ℤ) = (10 ^ (k - 1))⁻¹ := by
      rw [show (1 - k : ℤ) = -((k - 1 : ℕ) : ℤ) by omega, zpow_neg, zpow_natCast]
    have hinv' : (10 : ℚ) ^ (-k : ℤ) = (10 ^ k)⁻¹ := by rw [zpow_neg, zpow_natCast]
    split
    · -- the fraction is the power of ten itself
      next hge =>
      have hgeq : (den : ℚ) ≤ num * 10 ^ (k - 1) := mod_cast hge
      have heq : (num / den : ℚ) = 10 ^ (1 - k : ℤ) := by
        rw [hinv, div_eq_iff hdq.ne', eq_inv_mul_iff_mul_eq₀ hten.ne']
        exact le_antisymm hloq (by linarith)
      rw [heq]
      exact ⟨le_rfl, zpow_lt_zpow_right₀ (by norm_num) (by omega)⟩
    · next hlt =>
      have hltq : num * 10 ^ (k - 1) < (den : ℚ) := mod_cast not_le.1 hlt
      constructor
      · rw [hinv', inv_le_iff_one_le_mul₀ (by positivity), div_mul_eq_mul_div, le_div_iff₀ hdq]
        linarith
      · rw [show (-k + 1 : ℤ) = 1 - k by ring, hinv, div_lt_iff₀ hdq, ← div_eq_inv_mul,
          lt_div_iff₀ hten]
        exact hltq

theorem pow_leadingPlace_le : (10 : ℚ) ^ leadingPlace num den ≤ num / den :=
  (leadingPlace_spec hnum hden).1

theorem lt_pow_leadingPlace : (num / den : ℚ) < 10 ^ (leadingPlace num den + 1) :=
  (leadingPlace_spec hnum hden).2

end

/-! ## Grids -/

/-- The rational lies between two bounds; they themselves count if the interval is closed. -/
def Between (closed : Bool) (low high x : ℚ) : Prop :=
  if closed then low ≤ x ∧ x ≤ high else low < x ∧ x < high

theorem Between.le {closed : Bool} {low high x : ℚ} (h : Between closed low high x) :
    low ≤ x ∧ x ≤ high := by
  cases closed with
  | true => exact h
  | false => exact ⟨h.1.le, h.2.le⟩

theorem between_of_lt {closed : Bool} {low high x : ℚ} (hlo : low < x) (hhi : x < high) :
    Between closed low high x := by
  cases closed with
  | true => exact ⟨hlo.le, hhi.le⟩
  | false => exact ⟨hlo, hhi⟩

section

variable {den : ℕ} (hden : 0 < den)

include hden

/-- How fractions and points of a grid are compared in whole numbers. -/
theorem div_le_grid_iff (n a : ℕ) (step : ℤ) :
    n * 10 ^ (-step).toNat ≤ a * den * 10 ^ step.toNat ↔ (n / den : ℚ) ≤ a * 10 ^ step := by
  rw [ten_zpow_eq, mul_div_assoc', div_le_div_iff₀ (mod_cast hden) (by positivity),
    mul_right_comm (a : ℚ)]
  exact_mod_cast Iff.rfl

theorem grid_le_div_iff (n a : ℕ) (step : ℤ) :
    a * den * 10 ^ step.toNat ≤ n * 10 ^ (-step).toNat ↔ (a * 10 ^ step : ℚ) ≤ n / den := by
  rw [ten_zpow_eq, mul_div_assoc', div_le_div_iff₀ (by positivity) (mod_cast hden),
    mul_right_comm (a : ℚ)]
  exact_mod_cast Iff.rfl

theorem div_lt_grid_iff (n a : ℕ) (step : ℤ) :
    n * 10 ^ (-step).toNat < a * den * 10 ^ step.toNat ↔ (n / den : ℚ) < a * 10 ^ step := by
  rw [← not_le, ← not_le, grid_le_div_iff hden]

theorem grid_lt_div_iff (n a : ℕ) (step : ℤ) :
    a * den * 10 ^ step.toNat < n * 10 ^ (-step).toNat ↔ (a * 10 ^ step : ℚ) < n / den := by
  rw [← not_le, ← not_le, div_le_grid_iff hden]

/-- The test of a point of a grid. -/
theorem rounds_iff (low high a : ℕ) (closed : Bool) (step : ℤ) :
    (if closed then low * 10 ^ (-step).toNat ≤ a * den * 10 ^ step.toNat
        && a * den * 10 ^ step.toNat ≤ high * 10 ^ (-step).toNat
      else low * 10 ^ (-step).toNat < a * den * 10 ^ step.toNat
        && a * den * 10 ^ step.toNat < high * 10 ^ (-step).toNat : Bool) = true
      ↔ Between closed (low / den) (high / den) (a * 10 ^ step) := by
  unfold Between
  cases closed
  · simp only [Bool.false_eq_true, if_false, Bool.and_eq_true, decide_eq_true_eq,
      div_lt_grid_iff hden, grid_lt_div_iff hden]
  · simp only [if_true, Bool.and_eq_true, decide_eq_true_eq, div_le_grid_iff hden,
      grid_le_div_iff hden]

/-- The points of a grid on either side of a fraction. -/
theorem grid_floor (mid : ℕ) (step : ℤ) :
    let below := mid * 10 ^ (-step).toNat / (den * 10 ^ step.toNat)
    (below * 10 ^ step : ℚ) ≤ mid / den ∧ (mid / den : ℚ) < (below + 1 : ℕ) * 10 ^ step := by
  have hunit : 0 < den * 10 ^ step.toNat := Nat.mul_pos hden (Nat.pow_pos (by decide))
  dsimp only
  constructor
  · rw [← grid_le_div_iff hden, mul_assoc]
    exact Nat.div_mul_le_self _ _
  · rw [← div_lt_grid_iff hden, mul_assoc]
    exact (Nat.div_lt_iff_lt_mul hunit).1 (Nat.lt_succ_self _)

/-- A point that is found lies in the interval, and next to the fraction. -/
theorem between_of_nearestOnGrid? {low mid high a : ℕ} {closed : Bool} {step : ℤ}
    (h : nearestOnGrid? low mid high den closed step = some a) :
    Between closed (low / den) (high / den) (a * 10 ^ step)
      ∧ a ≤ mid * 10 ^ (-step).toNat / (den * 10 ^ step.toNat) + 1 := by
  unfold nearestOnGrid? at h
  dsimp only at h
  split at h
  · next hbelow habove =>
    split at h <;> cases h
    · exact ⟨(rounds_iff hden ..).1 hbelow, Nat.le_succ _⟩
    · exact ⟨(rounds_iff hden ..).1 habove, le_rfl⟩
  · next hbelow _ =>
    cases h
    exact ⟨(rounds_iff hden ..).1 hbelow, Nat.le_succ _⟩
  · next _ habove =>
    cases h
    exact ⟨(rounds_iff hden ..).1 habove, le_rfl⟩
  · cases h

/-- On a grid that is finer than the interval is wide, a point is found. -/
theorem nearestOnGrid?_ne_none {low mid high : ℕ} {closed : Bool} {step : ℤ} (hlow : low < mid)
    (hhigh : mid < high) (hstep : (10 : ℚ) ^ step < high / den - low / den) :
    nearestOnGrid? low mid high den closed step ≠ none := by
  intro h
  have hdq : (0 : ℚ) < den := mod_cast hden
  have hlow : (low / den : ℚ) < mid / den := div_lt_div_of_pos_right (mod_cast hlow) hdq
  have hhigh : (mid / den : ℚ) < high / den := div_lt_div_of_pos_right (mod_cast hhigh) hdq
  obtain ⟨hle, hlt⟩ := grid_floor hden mid step
  unfold nearestOnGrid? at h
  dsimp only at h
  split at h
  · split at h <;> cases h
  · cases h
  · cases h
  · -- neither neighbour lies in the interval, so they are too far apart
    next hbelow habove =>
    rw [Bool.eq_false_iff, ne_eq] at hbelow habove
    set below := mid * 10 ^ (-step).toNat / (den * 10 ^ step.toNat)
    have hnotBelow : ¬ Between closed (low / den) (high / den) (below * 10 ^ step) :=
      mt (rounds_iff hden ..).2 hbelow
    have hnotAbove : ¬ Between closed (low / den) (high / den) ((below + 1 : ℕ) * 10 ^ step) :=
      mt (rounds_iff hden ..).2 habove
    push_cast at hnotAbove hlt
    have h1 := mt (fun h => between_of_lt h (hle.trans_lt hhigh)) hnotBelow
    have h2 := mt (fun h => between_of_lt (hlow.trans hlt) h) hnotAbove
    rw [not_lt] at h1 h2
    linarith

end

/-! ## The search -/

section

variable {low mid high den : ℕ} {closed : Bool} {place : ℤ}

theorem searchGrids_eq_some {count remaining a : ℕ} {step : ℤ}
    (h : searchGrids low mid high den closed place count remaining = some (a, step)) :
    ∃ k, count ≤ k ∧ k < count + remaining ∧ step = place - ((k : ℤ) - 1)
      ∧ nearestOnGrid? low mid high den closed step = some a := by
  induction remaining generalizing count with
  | zero => cases h
  | succ remaining ih =>
    unfold searchGrids at h
    dsimp only at h
    split at h
    · next a' hfound =>
      cases h
      exact ⟨count, le_rfl, by omega, rfl, hfound⟩
    · obtain ⟨k, hlo, hhi, hk⟩ := ih h
      exact ⟨k, by omega, by omega, hk⟩

/-- The search ends at the latest where a point is found. -/
theorem searchGrids_ne_none {count remaining k : ℕ} (hlo : count ≤ k) (hhi : k < count + remaining)
    (hk : nearestOnGrid? low mid high den closed (place - ((k : ℤ) - 1)) ≠ none) :
    searchGrids low mid high den closed place count remaining ≠ none := by
  induction remaining generalizing count with
  | zero => omega
  | succ remaining ih =>
    unfold searchGrids
    dsimp only
    split
    · exact Option.some_ne_none _
    · next hnone =>
      refine ih ?_ (by omega)
      rcases hlo.eq_or_lt with rfl | hlt
      · exact absurd hnone hk
      · exact hlt

end

/-! ## The interval of a double -/

/-- The half-way point to the neighbour below. -/
def lowerHalfway (b : Binary) : ℚ :=
  (b.mantissa - if b.mantissa = 2 ^ 52 ∧ -1074 < b.exponent then 1 / 4 else 1 / 2)
    * 2 ^ b.exponent

/-- The half-way point to the neighbour above. -/
def upperHalfway (b : Binary) : ℚ :=
  (b.mantissa + 1 / 2) * 2 ^ b.exponent

/-- What the shortest decimal is searched in is rounded to the double. -/
theorem nearest_eq_size {b : Binary} (hc : IsCanonical b.mantissa b.exponent)
    (hm : 0 < b.mantissa) {x : ℚ}
    (h : Between (b.mantissa % 2 == 0) (lowerHalfway b) (upperHalfway b) x) :
    Double.nearest x = size b := by
  refine Double.nearest_eq_of_between hc hm h.le.1 h.le.2 fun hodd => ?_
  -- an odd double is no power of two, and its half-way points go to the even neighbours
  have hne : b.mantissa ≠ 2 ^ 52 := by
    intro h52
    rw [h52] at hodd
    exact absurd hodd (by decide)
  have hopen : (b.mantissa % 2 == 0) = false := by
    rw [hodd]
    rfl
  rw [hopen] at h
  have hlow : lowerHalfway b = (b.mantissa - 1 / 2) * 2 ^ b.exponent := by
    unfold lowerHalfway
    rw [if_neg fun h => hne h.1]
  rw [← hlow]
  exact h

/-- Quarters of the unit, in whole numbers. -/
theorem quarters_div (n : ℕ) (e : ℤ) :
    ((n * 2 ^ (e - 2).toNat : ℕ) / (2 ^ (-(e - 2)).toNat : ℕ) : ℚ) = n / 4 * 2 ^ e := by
  have hpow : (2 : ℚ) ^ (e - 2).toNat = 2 ^ (-(e - 2)).toNat * (2 ^ e / 4) := by
    rw [show (4 : ℚ) = 2 ^ (2 : ℤ) by norm_num, ← zpow_sub₀ two_ne_zero, ← zpow_natCast,
      ← zpow_natCast, ← zpow_add₀ two_ne_zero]
    congr 1
    omega
  push_cast
  rw [hpow]
  field_simp

section

variable {b : Binary} (hc : IsCanonical b.mantissa b.exponent) (hm : 0 < b.mantissa)

include hm in
theorem lowerHalfway_eq :
    ((b.quarters.1 * 2 ^ (b.exponent - 2).toNat : ℕ) / (2 ^ (-(b.exponent - 2)).toNat : ℕ) : ℚ)
      = lowerHalfway b := by
  rw [quarters_div]
  unfold Binary.quarters lowerHalfway
  dsimp only
  congr 1
  by_cases h : b.mantissa = 2 ^ 52 ∧ -1074 < b.exponent
  · have hpow : b.mantissa = 0x10000000000000 ∧ -1074 < b.exponent := h
    rw [if_pos hpow, if_pos h, Nat.cast_sub (by omega)]
    push_cast
    ring
  · have hpow : ¬ (b.mantissa = 0x10000000000000 ∧ -1074 < b.exponent) := h
    rw [if_neg hpow, if_neg h, Nat.cast_sub (by omega)]
    push_cast
    ring

theorem size_eq :
    ((b.quarters.2.1 * 2 ^ (b.exponent - 2).toNat : ℕ) / (2 ^ (-(b.exponent - 2)).toNat : ℕ) : ℚ)
      = size b := by
  rw [quarters_div]
  unfold Binary.quarters size
  push_cast
  ring

theorem upperHalfway_eq :
    ((b.quarters.2.2 * 2 ^ (b.exponent - 2).toNat : ℕ) / (2 ^ (-(b.exponent - 2)).toNat : ℕ) : ℚ)
      = upperHalfway b := by
  rw [quarters_div]
  unfold Binary.quarters upperHalfway
  push_cast
  ring

include hm in
theorem lowerHalfway_pos : 0 < lowerHalfway b := by
  have hone : (1 : ℚ) ≤ b.mantissa := mod_cast hm
  refine mul_pos ?_ (Double.zpow_two_pos _)
  split <;> linarith

include hc in
/-- A grid of 17 digits is finer than the half-way points are apart. -/
theorem grid_lt_width {place : ℤ} (h : (10 : ℚ) ^ place ≤ size b) :
    (10 : ℚ) ^ (place - 16) < upperHalfway b - lowerHalfway b := by
  have hunit := Double.zpow_two_pos b.exponent
  have hstep : (10 : ℚ) ^ (place - 16) = 10 ^ place / 10 ^ 16 := by
    rw [zpow_sub₀ (by norm_num)]
    norm_num
  -- the step is less than a tenth of the unit, since there are 53 bits at most
  have hmantissa : (b.mantissa : ℚ) < 2 ^ 53 := mod_cast hc.mantissa
  unfold size at h
  unfold upperHalfway lowerHalfway
  rw [hstep, ← sub_mul, div_lt_iff₀ (by positivity)]
  refine h.trans_lt ?_
  rw [mul_right_comm]
  apply mul_lt_mul_of_pos_right _ hunit
  split
  · next hpow =>
    rw [hpow.1]
    norm_num
  · linarith

end

/-! ## The shortest decimal -/

/-- The power of ten that scales the integer of the digits. -/
def Digits.power (d : Digits) : ℤ :=
  d.place + 1 - d.digits.length

/-- The value of a decimal. -/
def Digits.value (d : Digits) : ℚ :=
  Text.natOfDigits d.digits * 10 ^ d.power

/-- What writing a decimal relies on. -/
structure Digits.WellFormed (d : Digits) : Prop where
  /-- The digits are digits. -/
  isDigit : ∀ c ∈ d.digits, c.isDigit = true
  /-- There is a digit. -/
  ne_nil : d.digits ≠ []
  /-- The first digit is not zero. -/
  head_ne : d.digits.head? ≠ some '0'
  /-- Their integer is small. -/
  le_pow : Text.natOfDigits d.digits ≤ 10 ^ 17
  /-- There are few of them. -/
  length_le : d.digits.length ≤ 18

/-- The decimal of a multiple of a power of ten, without the zeros at its end. -/
def Digits.ofGrid (a : ℕ) (step : ℤ) : Digits where
  digits := Text.stripZeros (Text.digitsOfNat a)
  place := step + ((Text.digitsOfNat a).length : ℤ) - 1

section

variable {a : ℕ} (step : ℤ)

theorem value_ofGrid : (Digits.ofGrid a step).value = a * 10 ^ step := by
  have hstrip := Text.natOfDigits_stripZeros (Text.digitsOfNat a)
  have hlen := Text.length_stripZeros_le (Text.digitsOfNat a)
  rw [Text.natOfDigits_digitsOfNat] at hstrip
  unfold Digits.value Digits.power Digits.ofGrid
  dsimp only
  -- the zeros that are left out are made up for by the power of ten
  conv_rhs => rw [← hstrip]
  generalize (Text.stripZeros (Text.digitsOfNat a)).length = k at *
  rw [show step + ((Text.digitsOfNat a).length : ℤ) - 1 + 1 - k
    = ((Text.digitsOfNat a).length - k : ℕ) + step by omega, zpow_add₀ (by norm_num), zpow_natCast]
  push_cast
  ring

theorem le_power_ofGrid : step ≤ (Digits.ofGrid a step).power := by
  have hlen := Text.length_stripZeros_le (Text.digitsOfNat a)
  unfold Digits.power Digits.ofGrid
  dsimp only
  omega

theorem wellFormed_ofGrid (ha : 0 < a) (hmax : a ≤ 10 ^ 17) :
    (Digits.ofGrid a step).WellFormed := by
  have hvalue := Text.natOfDigits_stripZeros (Text.digitsOfNat a)
  rw [Text.natOfDigits_digitsOfNat] at hvalue
  have hne : Text.stripZeros (Text.digitsOfNat a) ≠ [] :=
    Text.stripZeros_ne_nil (by rw [Text.natOfDigits_digitsOfNat]; exact ha.ne')
  refine ⟨fun c hc => Text.isDigit_of_mem_digitsOfNat c (Text.mem_of_mem_stripZeros hc), hne,
    ?_, ?_, ?_⟩
  · show (Text.stripZeros (Text.digitsOfNat a)).head? ≠ some '0'
    rw [Text.head?_stripZeros hne]
    exact Text.head?_digitsOfNat_ne ha
  · refine le_trans ?_ hmax
    conv_rhs => rw [← hvalue]
    exact Nat.le_mul_of_pos_right _ (Nat.pow_pos (by decide))
  · exact (Text.length_stripZeros_le _).trans (Text.length_digitsOfNat_le (by decide) (by omega))

end

section

variable {b : Binary} (hc : IsCanonical b.mantissa b.exponent) (hm : 0 < b.mantissa)

include hc hm

/-- The search of a positive double ends with a point of at most 17 digits in its interval. -/
theorem exists_shortest_eq : ∃ (a : ℕ) (step : ℤ), shortest b = Digits.ofGrid a step ∧ 0 < a
    ∧ a ≤ 10 ^ 17 ∧ size b < 10 ^ (step + 17)
    ∧ Between (b.mantissa % 2 == 0) (lowerHalfway b) (upperHalfway b) (a * 10 ^ step) := by
  let num (n : ℕ) : ℕ := n * 2 ^ (b.exponent - 2).toNat
  let den : ℕ := 2 ^ (-(b.exponent - 2)).toNat
  let place := leadingPlace (num b.quarters.2.1) den
  have hden : 0 < den := Nat.two_pow_pos _
  have hunit : 0 < 2 ^ (b.exponent - 2).toNat := Nat.two_pow_pos _
  have hmid : 0 < num b.quarters.2.1 := Nat.mul_pos (Nat.mul_pos (by decide) hm) hunit
  have hlow : num b.quarters.1 < num b.quarters.2.1 := by
    apply Nat.mul_lt_mul_of_pos_right _ hunit
    unfold Binary.quarters
    dsimp only
    split <;> omega
  have hhigh : num b.quarters.2.1 < num b.quarters.2.2 :=
    Nat.mul_lt_mul_of_pos_right (Nat.lt_add_of_pos_right two_pos) hunit
  have hplace : (10 : ℚ) ^ place ≤ size b := (pow_leadingPlace_le hmid hden).trans_eq size_eq
  -- on the grid of 17 digits there is a hit at the latest
  have hfound : searchGrids (num b.quarters.1) (num b.quarters.2.1) (num b.quarters.2.2) den
      (b.mantissa % 2 == 0) place 1 17 ≠ none := by
    refine searchGrids_ne_none (k := 17) (by decide) (by decide)
      (nearestOnGrid?_ne_none hden hlow hhigh ?_)
    rw [lowerHalfway_eq hm, upperHalfway_eq]
    exact grid_lt_width hc hplace
  -- what is found lies in the interval, on a grid of at most 17 digits
  obtain ⟨⟨a, step⟩, hsearch⟩ := Option.ne_none_iff_exists'.1 hfound
  obtain ⟨k, hk1, hk17, hstep, hgrid⟩ := searchGrids_eq_some hsearch
  obtain ⟨hbetween, hnext⟩ := between_of_nearestOnGrid? hden hgrid
  have hfloor := (grid_floor hden (num b.quarters.2.1) step).1
  have hlt : size b < 10 ^ (place + 1) :=
    size_eq.symm.trans_lt (lt_pow_leadingPlace hmid hden)
  rw [size_eq] at hfloor
  rw [lowerHalfway_eq hm, upperHalfway_eq] at hbetween
  refine ⟨a, step, ?_, ?_, ?_, ?_, hbetween⟩
  · unfold shortest
    dsimp only
    split
    · next hnone => exact absurd (hnone.symm.trans hsearch) nofun
    · next hsome =>
      cases hsome.symm.trans hsearch
      rfl
  · have hpos := (lowerHalfway_pos hm).trans_le hbetween.le.1
    exact_mod_cast (pos_iff_pos_of_mul_pos hpos).2 (ten_zpow_pos step)
  · -- the neighbour below has at most as many digits as the grid
    have hbelow : ((num b.quarters.2.1 * 10 ^ (-step).toNat / (den * 10 ^ step.toNat) : ℕ) : ℚ)
        < 10 ^ k := by
      refine lt_of_mul_lt_mul_right ?_ (ten_zpow_pos step).le
      rw [← zpow_natCast, ← zpow_add₀ (by norm_num), hstep,
        show (k : ℤ) + (place - ((k : ℤ) - 1)) = place + 1 by ring, ← hstep]
      exact hfloor.trans_lt hlt
    have hbelow : num b.quarters.2.1 * 10 ^ (-step).toNat / (den * 10 ^ step.toNat) < 10 ^ k :=
      mod_cast hbelow
    have hpow : 10 ^ k ≤ 10 ^ 17 := Nat.pow_le_pow_right (by decide) (by omega)
    omega
  · exact hlt.trans_le (zpow_le_zpow_right₀ (by norm_num) (by omega))

theorem wellFormed_shortest : (shortest b).WellFormed := by
  obtain ⟨a, step, heq, ha, hmax, _⟩ := exists_shortest_eq hc hm
  rw [heq]
  exact wellFormed_ofGrid step ha hmax

theorem between_value_shortest : Between (b.mantissa % 2 == 0) (lowerHalfway b) (upperHalfway b)
    (shortest b).value := by
  obtain ⟨a, step, heq, _, _, _, hbetween⟩ := exists_shortest_eq hc hm
  rw [heq, value_ofGrid]
  exact hbetween

/-- The shortest decimal of a double rounds to the double. -/
theorem nearest_value_shortest : Double.nearest (shortest b).value = size b :=
  nearest_eq_size hc hm (between_value_shortest hc hm)

theorem natOfDigits_shortest_pos : 0 < Text.natOfDigits (shortest b).digits := by
  have hpos := (lowerHalfway_pos hm).trans_le (between_value_shortest hc hm).le.1
  exact_mod_cast (pos_iff_pos_of_mul_pos hpos).2 (ten_zpow_pos _)

/-- The power of ten is not too small. -/
theorem le_power_shortest : -340 ≤ (shortest b).power := by
  obtain ⟨a, step, heq, _, _, hsize, _⟩ := exists_shortest_eq hc hm
  have hstep : -340 ≤ step := by
    have hone : (1 : ℚ) ≤ b.mantissa := mod_cast hm
    -- even the least double is above the power of ten
    have hleast : (2 : ℚ) ^ (-1074 : ℤ) ≤ size b := by
      calc (2 : ℚ) ^ (-1074 : ℤ) ≤ 2 ^ b.exponent := zpow_le_zpow_right₀ one_le_two hc.exponent
        _ ≤ b.mantissa * 2 ^ b.exponent := le_mul_of_one_le_left (Double.zpow_two_pos _).le hone
    have hpow : (10 : ℚ) ^ (-324 : ℤ) < 2 ^ (-1074 : ℤ) := by
      have hnat : 2 ^ 1074 < 10 ^ 324 := by decide +kernel
      rw [zpow_neg, zpow_neg, zpow_ofNat, zpow_ofNat, inv_lt_inv₀ (by positivity) (by positivity)]
      exact_mod_cast hnat
    have hlt := (zpow_lt_zpow_iff_right₀ (by norm_num)).1 (hpow.trans_le (hleast.trans hsize.le))
    omega
  rw [heq]
  exact hstep.trans (le_power_ofGrid step)

/-- The power of ten is not too large. -/
theorem power_shortest_le (he : b.exponent ≤ 971) : (shortest b).power ≤ 308 := by
  have hone : (1 : ℚ) ≤ Text.natOfDigits (shortest b).digits :=
    mod_cast natOfDigits_shortest_pos hc hm
  have hupper : upperHalfway b < bound := by
    have hmantissa : (b.mantissa : ℚ) + 1 ≤ 2 ^ 53 := mod_cast hc.mantissa
    have hunit : (2 : ℚ) ^ b.exponent ≤ 2 ^ (971 : ℤ) := zpow_le_zpow_right₀ one_le_two he
    calc upperHalfway b < 2 ^ 53 * 2 ^ b.exponent :=
          mul_lt_mul_of_pos_right (by linarith) (Double.zpow_two_pos _)
      _ ≤ 2 ^ 53 * 2 ^ (971 : ℤ) := mul_le_mul_of_nonneg_left hunit (by positivity)
      _ = bound := Double.bound_eq.symm
  have hle : (10 : ℚ) ^ (shortest b).power ≤ upperHalfway b :=
    (le_mul_of_one_le_left (ten_zpow_pos _).le hone).trans (between_value_shortest hc hm).le.2
  have hpow : bound < (10 : ℚ) ^ (309 : ℤ) := by
    have hnat : 2 ^ 1024 < 10 ^ 309 := by decide +kernel
    unfold bound
    rw [zpow_ofNat, zpow_ofNat]
    exact_mod_cast hnat
  have hlt := (zpow_lt_zpow_iff_right₀ (by norm_num)).1 (hle.trans_lt (hupper.trans hpow))
  omega

end

end AlertRegistry.Decimal
