import AlertRegistry.Proofs.Decimal.Numeral

/-!
# Integers that are read as doubles

The literal of an integer that has no 64 bits, signed or unsigned, is read as a double. Digits that
fit are collected and rounded; of a longer run some are left over, and the rest is scaled up
(`collect_of_le`). Either way the double shows that the integer is beyond `2 ^ 63`, with one
exception: up to `2 ^ 63 + 1024`, half-way to the next double, it is `2 ^ 63` itself
(`IsLiteral.denotes_of_limit_lt`).
-/

namespace AlertRegistry.Decimal

open Double (Denotes)

/-! ## Around the limit -/

/-- The limit is the double next to it and to all up to half-way to the next double. -/
theorem nearest_eq_limit {N : ℕ} (hlo : 2 ^ 63 ≤ N) (hhi : N ≤ 2 ^ 63 + 1024) :
    Double.nearest N = 2 ^ 63 := by
  have hcanonical : Double.IsCanonical (2 ^ 52) 11 := ⟨by norm_num, by norm_num, .inr le_rfl⟩
  have hlo : (2 ^ 63 : ℚ) ≤ N := mod_cast hlo
  have hhi : (N : ℚ) ≤ 2 ^ 63 + 1024 := mod_cast hhi
  rw [Double.nearest_eq_of_between hcanonical (by norm_num) _ _ (by norm_num)]
  · norm_num
  · norm_num
    linarith
  · norm_num
    linarith

/-- From there on the next double is the nearest one, or a greater one. -/
theorem limit_lt_nearest {N : ℕ} (h : 2 ^ 63 + 1024 < N) : 2 ^ 63 < Double.nearest N := by
  have hcanonical : Double.IsCanonical (2 ^ 52 + 1) 11 :=
    ⟨by norm_num, by norm_num, .inr (by norm_num)⟩
  have hnext : Double.nearest (2 ^ 63 + 1025) = (2 ^ 52 + 1 : ℕ) * 2 ^ (11 : ℤ) :=
    Double.nearest_eq_of_between hcanonical (by norm_num) (by norm_num) (by norm_num)
      (by norm_num)
  calc (2 ^ 63 : ℚ) < (2 ^ 52 + 1 : ℕ) * 2 ^ (11 : ℤ) := by norm_num
    _ = Double.nearest (2 ^ 63 + 1025) := hnext.symm
    _ ≤ Double.nearest N := Double.nearest_mono (by norm_num) (mod_cast h)

theorem ten_le_nearest_pow {k : ℕ} (hk : 0 < k) : 10 ≤ Double.nearest (10 ^ k) :=
  calc (10 : ℚ) = Double.nearest 10 :=
        (mod_cast Double.nearest_natCast (n := 10) 5 1 (by norm_num) rfl :
          Double.nearest 10 = 10).symm
    _ ≤ Double.nearest (10 ^ k) :=
        Double.nearest_mono (by norm_num) (le_self_pow₀ (by norm_num) hk.ne')

/-- One more digit takes sixty bits beyond the limit. -/
theorem limit_lt_scaledSize {x : ℚ} (hx : 2 ^ 60 ≤ x) {power : ℤ} (hpower : 0 < power) :
    2 ^ 63 < scaledSize x power := by
  have hten := ten_le_nearest_pow (k := power.natAbs) (by omega)
  have hself : Double.nearest (2 ^ 60 * 10 : ℕ) = (2 ^ 60 * 10 : ℕ) :=
    Double.nearest_natCast 5 61 (by norm_num) (by norm_num)
  have hle : ((2 ^ 60 * 10 : ℕ) : ℚ) ≤ x * Double.nearest (10 ^ power.natAbs) :=
    calc ((2 ^ 60 * 10 : ℕ) : ℚ) = 2 ^ 60 * 10 := by norm_num
      _ ≤ x * Double.nearest (10 ^ power.natAbs) :=
          mul_le_mul hx hten (by norm_num) ((by norm_num : (0 : ℚ) ≤ 2 ^ 60).trans hx)
  rw [scaledSize, if_pos hpower.le]
  calc (2 ^ 63 : ℚ) < (2 ^ 60 * 10 : ℕ) := by norm_num
    _ = Double.nearest (2 ^ 60 * 10 : ℕ) := hself.symm
    _ ≤ _ := Double.nearest_mono (Nat.cast_nonneg _) hle

/-- What is not scaled stays a double. -/
theorem scaledSize_zero {x : ℚ} (hx : Double.nearest x = x) : scaledSize x 0 = x := by
  rw [scaledSize, if_pos le_rfl, Int.natAbs_zero, pow_zero, nearest_one, mul_one, hx]

/-! ## Digits that do not fit -/

/-- Of digits that do not fit into 64 bits some are left over, after at least sixty bits. -/
theorem collect_of_le {m : ℕ} {ds : List Char} (hd : ∀ c ∈ ds, c.isDigit = true) (hm : m < 2 ^ 64)
    (h : 2 ^ 64 ≤ Nat.ofDigitChars 10 ds m) :
    ∃ k extra, collect m ds = (k, extra) ∧ 2 ^ 60 ≤ k ∧ k < 2 ^ 64 ∧ 0 < extra := by
  induction ds generalizing m with
  | nil => exact absurd h (not_le.2 hm)
  | cons d ds ih =>
    have hstep : Nat.ofDigitChars 10 (d :: ds) m
        = Nat.ofDigitChars 10 ds (Nat.ofDigitChars 10 [d] m) :=
      Nat.ofDigitChars_append (l := [d]) m
    obtain ⟨hhead, htail⟩ := List.forall_mem_cons.1 hd
    unfold collect
    dsimp only
    split
    · next hfits => exact ih htail hfits (hstep ▸ h)
    · next hfull =>
      obtain ⟨k, hk, -, hvalue⟩ := Text.exists_digitChar hhead
      have hnext : Nat.ofDigitChars 10 [d] m = m * 10 + k := by
        rw [Nat.ofDigitChars_eq_ofDigitChars_zero, List.length_singleton, pow_one, mul_comm,
          ← hvalue]
        rfl
      exact ⟨m, ds.length + 1, rfl, by omega, hm, Nat.succ_pos _⟩

/-- What is scaled up and not refused has the scaled size. -/
theorem denotes_of_scale? {f g : Float} {x : ℚ} (h : Denotes f false x) {power : ℤ}
    (hpower : 0 ≤ power) (hg : scale? f power = some g) : Denotes g false (scaledSize x power) := by
  rcases le_or_gt power 308 with hnear | hfar
  · rcases scale?_of_nonneg h hpower hnear with ⟨-, g', hg', hden⟩ | ⟨-, hnone⟩
    · rwa [Option.some.inj (hg.symm.trans hg')]
    · rw [hnone] at hg
      cases hg
  · rw [scale?, if_neg (by omega)] at hg
    split at hg
    · -- only zero can be scaled that far
      next hz =>
      obtain rfl := Option.some.inj hg
      obtain ⟨b, hb, hs, rfl⟩ := h
      have hzero := Double.size_eq_zero (Double.mantissa_eq_zero_of_beq hb hz)
      refine ⟨b, hb, hs, ?_⟩
      rw [scaledSize, if_pos hpower, hzero, zero_mul, Double.nearest_zero]
    · cases hg

/-! ## Literals -/

namespace Numeral

variable {m : Numeral} {n : ℤ} {f : Float}

/-- The numeral is the literal of the integer: digits behind an optional minus sign, without a point
and an exponent. -/
structure IsLiteral (m : Numeral) (n : ℤ) : Prop where
  /-- There are digits only. -/
  digits : ∀ c ∈ m.whole, c.isDigit = true
  /-- There is no point. -/
  fraction : m.fraction = none
  /-- There is no exponent. -/
  exponent : m.exponent = none
  /-- The digits and the sign denote the integer. -/
  value : n = if m.negative then -(Text.natOfDigits m.whole : ℤ) else Text.natOfDigits m.whole

/-- A literal that is read as an integer is read as its own. -/
theorem IsLiteral.eq_of_integer? (h : m.IsLiteral n) {k : ℤ} (hk : m.integer? = some k) :
    k = n := by
  have hvalue := h.value
  unfold integer? at hk
  grind

/-- A literal that is not read as an integer is a negative zero or has no 64 bits. -/
theorem IsLiteral.of_integer?_eq_none (h : m.IsLiteral n) (hnone : m.integer? = none) :
    (m.negative = true ∧ Text.natOfDigits m.whole = 0)
    ∨ (m.negative = true ∧ 2 ^ 63 < Text.natOfDigits m.whole)
    ∨ m.negative = false ∧ 2 ^ 64 ≤ Text.natOfDigits m.whole := by
  have hfraction := h.fraction
  have hexponent := h.exponent
  unfold integer? at hnone
  grind

/-- The digits that are collected are scaled by the number of those that are left over. -/
theorem IsLiteral.denotes_scaled (h : m.IsLiteral n) (hf : m.float? = some f) {k extra : ℕ}
    (hcollect : collect 0 m.whole = (k, extra)) (hk : k < 2 ^ 64) :
    Denotes f m.negative (scaledSize (Double.nearest k) extra) := by
  have hscaled : m.float? = (scale? k.toUInt64.toFloat extra).map m.signed := by
    unfold float? collected
    rw [h.fraction, h.exponent, hcollect]
  obtain ⟨g, hg, rfl⟩ := Option.map_eq_some_iff.1 (hscaled.symm.trans hf)
  exact denotes_signed (denotes_of_scale? (denotes_toFloat hk) (Int.natCast_nonneg extra) hg)

/-- The literal of an integer of 64 bits is read as the double next to it. -/
theorem IsLiteral.denotes_of_lt (h : m.IsLiteral n) (hf : m.float? = some f)
    (hlt : Text.natOfDigits m.whole < 2 ^ 64) :
    Denotes f m.negative (Double.nearest (Text.natOfDigits m.whole)) := by
  have hcollect : collect 0 m.whole = (Text.natOfDigits m.whole, 0) := collect_eq hlt
  have hden := h.denotes_scaled hf hcollect hlt
  rwa [Nat.cast_zero, scaledSize_zero (denotes_toFloat hlt).nearest_eq] at hden

/-- The literal of an integer beyond the limit is read as a double beyond the limit, or as the limit
if it is near. -/
theorem IsLiteral.denotes_of_limit_lt (h : m.IsLiteral n) (hf : m.float? = some f)
    (hbig : 2 ^ 63 < Text.natOfDigits m.whole) : ∃ q, Denotes f m.negative q
      ∧ (Text.natOfDigits m.whole ≤ 2 ^ 63 + 1024 → q = 2 ^ 63)
      ∧ (2 ^ 63 + 1024 < Text.natOfDigits m.whole → 2 ^ 63 < q) := by
  rcases lt_or_ge (Text.natOfDigits m.whole) (2 ^ 64) with hlt | hge
  · exact ⟨_, h.denotes_of_lt hf hlt, nearest_eq_limit hbig.le, limit_lt_nearest⟩
  · obtain ⟨k, extra, hcollect, hlo, hhi, hextra⟩ := collect_of_le h.digits (by norm_num) hge
    have hself : Double.nearest (2 ^ 60 : ℕ) = (2 ^ 60 : ℕ) :=
      Double.nearest_natCast 1 60 (by norm_num) (by norm_num)
    have hnear : 2 ^ 60 ≤ Double.nearest k :=
      calc (2 ^ 60 : ℚ) = (2 ^ 60 : ℕ) := by norm_num
        _ = Double.nearest (2 ^ 60 : ℕ) := hself.symm
        _ ≤ Double.nearest k := Double.nearest_mono (Nat.cast_nonneg _) (mod_cast hlo)
    exact ⟨_, h.denotes_scaled hf hcollect hhi, fun hle => absurd (hge.trans hle) (by norm_num),
      fun _ => limit_lt_scaledSize hnear (mod_cast hextra)⟩

end Numeral

end AlertRegistry.Decimal
