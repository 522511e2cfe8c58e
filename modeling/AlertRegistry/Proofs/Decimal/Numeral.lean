import AlertRegistry.Decimal.Numeral
import AlertRegistry.Proofs.Double.Value
import AlertRegistry.Proofs.Text.Digits

/-!
# What a numeral is read as

A numeral stands for an integer and a power of ten, `Numeral.written`. If the integer has at most 64
bits and the power is within reach, then the reader rounds the integer, then scales it by a rounded
power of ten and rounds again: the double has the size `readSize`, if that is not too large
(`float?_eq_some`). So what is read need not be the double nearest to what is written.
-/

namespace AlertRegistry.Decimal

open Double (bound Denotes)

/-! ## Scaling -/

/-- The size of a double that is scaled by a power of ten: a rounded product with a rounded power of
ten, or a rounded quotient, after another such quotient if the power is very small. -/
def scaledSize (x : ℚ) (power : ℤ) : ℚ :=
  if 0 ≤ power then Double.nearest (x * Double.nearest (10 ^ power.natAbs))
  else if -308 ≤ power then Double.nearest (x / Double.nearest (10 ^ power.natAbs))
  else
    Double.nearest (Double.nearest (x / Double.nearest (10 ^ 308))
      / Double.nearest (10 ^ (power + 308).natAbs))

/-- A power of ten that is within reach is not too large for a double. -/
theorem denotes_tenToThe {k : ℕ} (hk : k ≤ 308) :
    Denotes (tenToThe k) false (Double.nearest (10 ^ k)) := by
  rw [Double.tenToThe_eq hk]
  have hmax : 2 * 10 ^ 308 < (2 ^ 54 - 1) * 2 ^ 971 := by decide +kernel
  have hpow : 10 ^ k ≤ 10 ^ 308 := pow_le_pow_right₀ (by decide) hk
  have hfin := Double.nearest_natCast_lt_bound ((Nat.mul_le_mul_left 2 hpow).trans_lt hmax)
  push_cast at hfin
  exact .rounded _ (by positivity) hfin

theorem nearest_one : Double.nearest 1 = 1 :=
  mod_cast Double.nearest_natCast 1 0 (by norm_num) rfl

theorem one_le_nearest_pow (k : ℕ) : 1 ≤ Double.nearest (10 ^ k) :=
  calc (1 : ℚ) = Double.nearest 1 := nearest_one.symm
    _ ≤ Double.nearest (10 ^ k) := Double.nearest_mono zero_le_one (one_le_pow₀ (by norm_num))

section

variable {f : Float} {x : ℚ}

/-- A quotient by a power of ten is never too large. -/
theorem denotes_div_tenToThe (h : Denotes f false x) {k : ℕ} (hk : k ≤ 308) :
    Denotes (f / tenToThe k) false (Double.nearest (x / Double.nearest (10 ^ k))) := by
  have hone := one_le_nearest_pow k
  rw [h.div_eq (denotes_tenToThe hk) (zero_lt_one.trans_le hone).ne']
  have hx := h.nonneg
  have hquot : 0 ≤ x / Double.nearest (10 ^ k) := div_nonneg hx (zero_le_one.trans hone)
  refine .rounded _ hquot (lt_of_le_of_lt ?_ h.lt_bound)
  calc Double.nearest (x / Double.nearest (10 ^ k)) ≤ Double.nearest x :=
        Double.nearest_mono hquot (div_le_self hx hone)
    _ = x := h.nearest_eq

/-- A product with a power of ten is refused exactly if it is too large. -/
theorem scale?_of_nonneg (h : Denotes f false x) {power : ℤ} (hlo : 0 ≤ power)
    (hhi : power ≤ 308) :
    (scaledSize x power < bound
      ∧ ∃ g, scale? f power = some g ∧ Denotes g false (scaledSize x power))
    ∨ (bound ≤ scaledSize x power ∧ scale? f power = none) := by
  have hten := denotes_tenToThe (k := power.natAbs) (by omega)
  have hprod := h.mul_eq hten
  have hpos : 0 ≤ x * Double.nearest (10 ^ power.natAbs) := mul_nonneg h.nonneg hten.nonneg
  have hsize : scaledSize x power = Double.nearest (x * Double.nearest (10 ^ power.natAbs)) :=
    if_pos hlo
  rw [scale?, if_pos (by omega), if_pos hlo, hsize]
  rcases lt_or_ge (Double.nearest (x * Double.nearest (10 ^ power.natAbs))) bound with hfin | hinf
  · have hden := Denotes.rounded false hpos hfin
    left
    refine ⟨hfin, _, ?_, hprod ▸ hden⟩
    rw [hprod]
    exact if_neg (by rw [Bool.xor_self, hden.isInf]; exact Bool.false_ne_true)
  · right
    refine ⟨hinf, if_pos ?_⟩
    by_contra hnot
    exact absurd hinf (not_le.2 (h.nearest_mul_lt hten (Bool.eq_false_iff.2 hnot)))

/-- A quotient by powers of ten is not refused. -/
theorem scale?_of_neg (h : Denotes f false x) {power : ℤ} (hlo : -616 ≤ power) (hhi : power < 0) :
    ∃ g, scale? f power = some g ∧ Denotes g false (scaledSize x power) := by
  rw [scale?, scaledSize]
  simp only [if_neg (not_le.2 hhi)]
  by_cases hnear : -308 ≤ power
  · rw [if_pos (by omega), if_pos hnear]
    exact ⟨_, rfl, denotes_div_tenToThe h (by omega)⟩
  · rw [if_neg (by omega), if_neg hnear]
    have hfirst := denotes_div_tenToThe h (k := 308) le_rfl
    split
    · -- zero stays as it is
      next hz =>
      obtain ⟨b, hb, hs, rfl⟩ := h
      have hzero := Double.size_eq_zero (Double.mantissa_eq_zero_of_beq hb hz)
      refine ⟨f, rfl, b, hb, hs, ?_⟩
      rw [hzero, zero_div, Double.nearest_zero, zero_div, Double.nearest_zero]
    · rw [scale?, if_pos (by omega)]
      split
      · omega
      · exact ⟨_, rfl, denotes_div_tenToThe hfirst (by omega)⟩

end

/-! ## Collecting digits -/

theorem le_ofDigitChars (ds : List Char) (m : ℕ) : m ≤ Nat.ofDigitChars 10 ds m := by
  rw [Nat.ofDigitChars_eq_ofDigitChars_zero]
  have hpos : 1 ≤ 10 ^ ds.length := Nat.one_le_pow _ _ (by decide)
  exact (Nat.le_mul_of_pos_left m hpos).trans (Nat.le_add_right _ _)

/-- Digits whose value has at most 64 bits are all collected. -/
theorem collect_eq {m : ℕ} {ds : List Char} (h : Nat.ofDigitChars 10 ds m < 2 ^ 64) :
    collect m ds = (Nat.ofDigitChars 10 ds m, 0) := by
  induction ds generalizing m with
  | nil => rfl
  | cons d ds ih =>
    have hstep : Nat.ofDigitChars 10 (d :: ds) m
        = Nat.ofDigitChars 10 ds (Nat.ofDigitChars 10 [d] m) :=
      Nat.ofDigitChars_append (l := [d]) m
    rw [hstep] at h ⊢
    -- the value only grows, so the digits up to here fit as all of them do
    have hfits : Nat.ofDigitChars 10 [d] m < 0x10000000000000000 :=
      (le_ofDigitChars ds _).trans_lt h
    unfold collect
    dsimp only
    rw [if_pos hfits]
    exact ih h

namespace Numeral

/-- The exponent as it is written, 0 if there is none. -/
def writtenExponent (n : Numeral) : ℤ :=
  match n.exponent with
  | none => 0
  | some (negative, ds) => if negative then -(Text.natOfDigits ds : ℤ) else Text.natOfDigits ds

/-- The integer that all the digits make up, and the power of ten that scales it. -/
def written (n : Numeral) : ℕ × ℤ :=
  let fraction := n.fraction.getD []
  (Text.natOfDigits (n.whole ++ fraction), n.writtenExponent - fraction.length)

variable {n : Numeral} {m : ℕ} {power : ℤ}

theorem collected_eq (hm : n.written.1 < 2 ^ 64) :
    n.collected = (n.written.1, -((n.fraction.getD []).length : ℤ)) := by
  obtain ⟨_, whole, fraction, _⟩ := n
  unfold written Text.natOfDigits at hm ⊢
  dsimp only at hm ⊢
  rw [Nat.ofDigitChars_append] at hm ⊢
  have hwhole : collect 0 whole = (Nat.ofDigitChars 10 whole 0, 0) :=
    collect_eq ((le_ofDigitChars _ _).trans_lt hm)
  unfold collected
  dsimp only
  rw [hwhole]
  cases fraction with
  | none => rfl
  | some ds =>
    dsimp only [Option.getD_some]
    have hfraction := collect_eq hm
    dsimp only [Option.getD_some] at hfraction
    rw [hfraction]
    congr 1
    omega

end Numeral

/-- The size of the double that is read for an integer times a power of ten. -/
def readSize (m : ℕ) (power : ℤ) : ℚ :=
  scaledSize (Double.nearest m) power

/-- An integer of 64 bits becomes the double next to it. -/
theorem denotes_toFloat {m : ℕ} (hm : m < 2 ^ 64) :
    Denotes m.toUInt64.toFloat false (Double.nearest m) := by
  rw [Double.toFloat_eq hm]
  have hmax : 2 * 2 ^ 64 ≤ (2 ^ 54 - 1) * 2 ^ 971 := by decide +kernel
  exact .rounded _ (Nat.cast_nonneg m) (Double.nearest_natCast_lt_bound (by omega))

/-- A negative power of ten makes nothing too large. -/
theorem readSize_lt_bound_of_neg {m : ℕ} (hm : m < 2 ^ 64) {power : ℤ} (hlo : -616 ≤ power)
    (hneg : power < 0) : readSize m power < bound := by
  obtain ⟨_, _, hsize⟩ := scale?_of_neg (denotes_toFloat hm) hlo hneg
  exact hsize.lt_bound

namespace Numeral

variable {n : Numeral}

theorem denotes_signed {f : Float} {x : ℚ} (h : Denotes f false x) :
    Denotes (n.signed f) n.negative x := by
  unfold signed
  cases n.negative with
  | false => exact h
  | true => exact h.neg

/-- Without a very large exponent, the integer is scaled and gets its sign. -/
theorem float?_eq (hm : n.written.1 < 2 ^ 64) (hexp : n.writtenExponent.natAbs < 2 ^ 31) :
    n.float? = (scale? n.written.1.toUInt64.toFloat n.written.2).map n.signed := by
  have hcollected := collected_eq hm
  unfold float?
  rw [hcollected]
  dsimp only
  unfold writtenExponent at hexp
  have hpower : n.written.2 = n.writtenExponent - (n.fraction.getD []).length := rfl
  rw [hpower]
  unfold writtenExponent
  cases hn : n.exponent with
  | none =>
    dsimp only
    rw [zero_sub]
  | some e =>
    obtain ⟨negative, ds⟩ := e
    rw [hn] at hexp
    cases negative with
    | false =>
      have hsmall : ¬ 0x80000000 ≤ Text.natOfDigits ds := not_le.2 hexp
      simp only [Bool.false_eq_true, if_false, if_neg hsmall]
      rw [neg_add_eq_sub]
    | true =>
      have hsmall : ¬ 0x80000000 ≤ Text.natOfDigits ds := by
        have hexp : (-(Text.natOfDigits ds : ℤ)).natAbs < 2 ^ 31 := hexp
        omega
      simp only [if_true, if_neg hsmall]
      congr 2
      ring

section

variable (hm : n.written.1 < 2 ^ 64) (hexp : n.writtenExponent.natAbs < 2 ^ 31)
  (hlo : -616 ≤ n.written.2) (hhi : n.written.2 ≤ 308)

include hm hexp hlo hhi

/-- A numeral is read as the double of its size, if that is not too large. -/
theorem float?_eq_some (hfin : readSize n.written.1 n.written.2 < bound) :
    ∃ f, n.float? = some f ∧ Denotes f n.negative (readSize n.written.1 n.written.2) := by
  have hden := denotes_toFloat hm
  obtain ⟨g, hg, hsize⟩ : ∃ g, scale? n.written.1.toUInt64.toFloat n.written.2 = some g
      ∧ Denotes g false (readSize n.written.1 n.written.2) := by
    rcases le_or_gt 0 n.written.2 with hpos | hneg
    · rcases scale?_of_nonneg hden hpos hhi with ⟨_, h⟩ | ⟨hinf, _⟩
      · exact h
      · exact absurd hfin (not_lt.2 hinf)
    · exact scale?_of_neg hden hlo hneg
  refine ⟨_, ?_, denotes_signed hsize⟩
  rw [float?_eq hm hexp, hg]
  rfl

end

end Numeral

end AlertRegistry.Decimal
