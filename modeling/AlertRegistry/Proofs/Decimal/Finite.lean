import AlertRegistry.Proofs.Decimal.Numeral

/-!
# What is read of a numeral is finite

However a number is written, it is read as a finite double or refused: the digits are collected into
an integer of 64 bits (`collected_lt`), a product that is too large is refused, and a quotient by a
power of ten is not larger than what is divided (`isFinite_of_scale?`). So are 64-bit integers that
become doubles (`isFinite_ofInt`).
-/

namespace AlertRegistry.Decimal

open Double (bound Denotes)

theorem isFinite_zero : (0.0 : Float).isFinite = true := by
  decide +kernel

theorem isFinite_neg {f : Float} (h : f.isFinite = true) : (-f).isFinite = true := by
  obtain ⟨b, hb⟩ := Double.isFinite_iff.1 h
  exact Double.isFinite_iff.2 ⟨_, Double.neg_eq hb⟩

/-! ## Integers -/

/-- The first of the powers of ten is one. -/
theorem denotes_one : Denotes Float.exactlyRepresentablePowersOfTen[0] false 1 := by
  have hparts : Binary.ofFloat? Float.exactlyRepresentablePowersOfTen[0]
      = some { negative := false, mantissa := 2 ^ 52, exponent := -52 } := by
    decide +kernel
  refine ⟨_, hparts, rfl, ?_⟩
  rw [Double.size_eq_natCast_iff (n := 1) |>.2 (by decide), Nat.cast_one]

/-- An integer of 64 bits is a finite double. -/
theorem isFinite_ofNat {n : ℕ} (hn : n < 2 ^ 64) : (Float.ofNat n).isFinite = true := by
  have hmax : 2 * 2 ^ 64 ≤ (2 ^ 54 - 1) * 2 ^ 971 := by decide +kernel
  have hfin : Double.nearest n < bound := Double.nearest_natCast_lt_bound (by omega)
  show (Float.ofScientific n false 0).isFinite = true
  unfold Float.ofScientific
  by_cases hsmall : n < 2 ^ 53 ∧ 0 ≤ 22
  · rw [dif_pos hsmall]
    -- a short integer is multiplied by one
    have hden := denotes_toFloat hn
    show (n.toUInt64.toFloat * Float.exactlyRepresentablePowersOfTen[0]).isFinite = true
    rw [hden.mul_eq denotes_one, mul_one]
    refine (Denotes.rounded _ hden.nonneg ?_).isFinite
    rw [hden.nearest_eq]
    exact hfin
  · rw [dif_neg hsmall]
    have hpos : 0 < n := by omega
    show (Float.ofModel (.pack (Float.Model.UnpackedFloat.ofScientific .binary64 n
      (Int.ofNat 0)))).isFinite = true
    rw [Double.ofScientific_eq hpos (Nat.zero_le _), pow_zero, mul_one]
    exact (Denotes.rounded false (Nat.cast_nonneg n) hfin).isFinite

theorem isFinite_ofInt {k : ℤ} (hlo : -2 ^ 63 ≤ k) (hhi : k < 2 ^ 64) :
    (Float.ofInt k).isFinite = true := by
  cases k with
  | ofNat n =>
    rw [Int.ofNat_eq_natCast] at hhi
    exact isFinite_ofNat (by omega)
  | negSucc n => exact isFinite_neg (isFinite_ofNat (n := n.succ) (by omega))

/-! ## Scaling -/

/-- Scaling a finite double gives a finite double, if anything. -/
theorem exists_denotes_of_scale? {f g : Float} {x : ℚ} {power : ℤ} (h : Denotes f false x)
    (hg : scale? f power = some g) : ∃ y, Denotes g false y := by
  fun_induction scale? f power generalizing x with
  | case1 f power hnear hpos product => cases hg
  | case2 f power hnear hpos product =>
    rename_i hinf
    rw [← Option.some.inj hg]
    have hten := denotes_tenToThe (k := power.natAbs) hnear
    have hfin := h.nearest_mul_lt hten (Bool.eq_false_iff.2 hinf)
    have heq : product = Double.rounded false _ := h.mul_eq hten
    rw [heq]
    exact ⟨_, .rounded false (mul_nonneg h.nonneg hten.nonneg) hfin⟩
  | case3 f power hnear hneg =>
    cases hg
    exact ⟨_, denotes_div_tenToThe h hnear⟩
  | case4 f power hfar hzero =>
    cases hg
    exact ⟨_, h⟩
  | case5 f power hfar hzero hpos => cases hg
  | case6 f power hfar hzero hneg ih =>
    exact ih (denotes_div_tenToThe h le_rfl) hg

/-! ## Numerals -/

theorem collect_lt {m : ℕ} {ds : List Char} (hm : m < 2 ^ 64) : (collect m ds).1 < 2 ^ 64 := by
  fun_induction collect m ds with
  | case1 => exact hm
  | case2 m d ds m' hfits ih => exact ih hfits
  | case3 m d ds m' hfits => exact hm

namespace Numeral

variable {n : Numeral} {x : Float}

theorem collected_lt (n : Numeral) : n.collected.1 < 2 ^ 64 := by
  have hwhole : (collect 0 n.whole).1 < 2 ^ 64 := collect_lt (by decide)
  unfold collected
  cases n.fraction with
  | none => exact hwhole
  | some ds => exact collect_lt hwhole

theorem isFinite_signed (h : x.isFinite = true) : (n.signed x).isFinite = true := by
  unfold signed
  split
  · exact isFinite_neg h
  · exact h

theorem isFinite_of_scale? {power : ℤ}
    (h : (scale? n.collected.1.toUInt64.toFloat power).map n.signed = some x) :
    x.isFinite = true := by
  obtain ⟨g, hg, rfl⟩ := Option.map_eq_some_iff.1 h
  obtain ⟨_, hden⟩ := exists_denotes_of_scale? (denotes_toFloat n.collected_lt) hg
  exact isFinite_signed hden.isFinite

/-- A numeral is read as a finite double, if as any. -/
theorem isFinite_of_float? (h : n.float? = some x) : x.isFinite = true := by
  unfold float? at h
  dsimp only at h
  split at h
  · exact isFinite_of_scale? h
  · split at h
    · split at h
      · cases h
      · cases h
        exact isFinite_signed isFinite_zero
    · exact isFinite_of_scale? h

/-- An integer that is read has 64 bits. -/
theorem bounds_of_integer? {k : ℤ} (h : n.integer? = some k) : -2 ^ 63 ≤ k ∧ k < 2 ^ 64 := by
  unfold integer? at h
  grind

end Numeral

end AlertRegistry.Decimal
