import AlertRegistry.Decimal.Numeral
import AlertRegistry.Proofs.Double.Arithmetic
import AlertRegistry.Proofs.Double.Bits

/-!
# Doubles as rationals

A finite double is a sign and a size, the rational `m * 2 ^ e`, and is determined by them
(`eq_of_size_eq`). `rounded negative x` is the double next to a rational that is not negative, with
a sign: its size is `nearest x`, and it is infinite if that is too large for a double.

The arithmetic of doubles is that of rationals followed by `rounded` (`mul_eq`, `div_eq`,
`toFloat_eq`, `tenToThe_eq`).
-/

namespace AlertRegistry.Double

open Decimal (Binary)
open Float.Model (Format UnpackedFloat)
open Float.Model.UnpackedFloat (Sign)

/-- The size of a finite double. -/
def size (b : Binary) : ℚ :=
  b.mantissa * 2 ^ b.exponent

theorem size_nonneg (b : Binary) : 0 ≤ size b :=
  mul_nonneg (Nat.cast_nonneg _) (zpow_two_pos _).le

/-- The sign of arithmetic. -/
def signOf (negative : Bool) : Sign :=
  if negative then .negative else .positive

@[simp] theorem isNegative_signOf (negative : Bool) : isNegative (signOf negative) = negative := by
  cases negative <;> rfl

@[simp] theorem signOf_isNegative (s : Sign) : signOf (isNegative s) = s := by
  cases s <;> rfl

/-- The double next to a rational that is not negative, with a sign. -/
def rounded (negative : Bool) (x : ℚ) : Float :=
  .ofModel (.pack (unpackedOf (signOf negative) x))

/-- The least power of two that is too large for a double. -/
def bound : ℚ := 2 ^ (1024 : ℤ)

theorem bound_pos : 0 < bound := zpow_two_pos _

theorem bound_eq : bound = 2 ^ 53 * 2 ^ (971 : ℤ) := by
  unfold bound
  rw [show (1024 : ℤ) = 53 + 971 by norm_num, zpow_add₀ two_ne_zero, zpow_ofNat 2 53]

/-! ## Canonical parts -/

theorem mul_two_zpow_eq_zero_iff {m : ℕ} {e : ℤ} : (m * 2 ^ e : ℚ) = 0 ↔ m = 0 := by
  rw [mul_eq_zero, Nat.cast_eq_zero, or_iff_left (zpow_two_pos e).ne']

/-- The exponent of canonical parts is that of the spacing. -/
theorem IsCanonical.quantum_eq {m : ℕ} {e : ℤ} (h : IsCanonical m e) (hm : 0 < m) :
    quantum (m * 2 ^ e) = e := by
  apply Double.quantum_eq (mul_pos (mod_cast hm) (zpow_two_pos e)) h.exponent
  · rw [zpow_add₀ two_ne_zero]
    exact mul_lt_mul_of_pos_right (mod_cast h.mantissa) (zpow_two_pos e)
  · refine h.normal.imp_right fun hbits => ?_
    rw [zpow_add₀ two_ne_zero]
    exact mul_le_mul_of_nonneg_right (mod_cast hbits) (zpow_two_pos e).le

/-- Canonical parts of one size are the same. -/
theorem IsCanonical.unique {m m' : ℕ} {e e' : ℤ} (h : IsCanonical m e) (h' : IsCanonical m' e')
    (heq : (m * 2 ^ e : ℚ) = m' * 2 ^ e') : m = m' ∧ e = e' := by
  rcases Nat.eq_zero_or_pos m with rfl | hm
  · have hm' : m' = 0 := by
      rw [← mul_two_zpow_eq_zero_iff (e := e'), ← heq, Nat.cast_zero, zero_mul]
    subst hm'
    exact ⟨rfl, (h.normal.resolve_right (by omega)).trans (h'.normal.resolve_right (by omega)).symm⟩
  · have hm' : 0 < m' := by
      rw [Nat.pos_iff_ne_zero, ne_eq, ← mul_two_zpow_eq_zero_iff (e := e'), ← heq,
        mul_two_zpow_eq_zero_iff]
      exact hm.ne'
    have he : e = e' := by rw [← h.quantum_eq hm, ← h'.quantum_eq hm', heq]
    subst he
    have hm := mul_right_cancel₀ (zpow_two_pos e).ne' heq
    exact ⟨mod_cast hm, rfl⟩

/-- Finite doubles with one sign and one size are the same. -/
theorem eq_of_size_eq {x y : Float} {a b : Binary} (hx : Binary.ofFloat? x = some a)
    (hy : Binary.ofFloat? y = some b) (hsign : a.negative = b.negative) (hsize : size a = size b) :
    x = y := by
  obtain ⟨hm, he⟩ := (isCanonical_of_ofFloat? hx).1.unique (isCanonical_of_ofFloat? hy).1 hsize
  obtain ⟨_, m, e⟩ := a
  obtain ⟨_, m', e'⟩ := b
  dsimp only at hm he hsign
  subst hm he hsign
  exact ofFloat?_injective hx hy

/-! ## Rounded doubles -/

theorem ofFloat?_ofModel_pack (u : UnpackedFloat) :
    Binary.ofFloat? (.ofModel (.pack u))
      = partsOf? (UnpackedFloat.unpack .binary64 (UnpackedFloat.pack .binary64 u)) :=
  ofFloat?_eq _

/-- What a rational is rounded to, in canonical parts. -/
theorem unpackedOf_cases (s : Sign) {x : ℚ} (hx : 0 ≤ x) :
    (unpackedOf s x = .zero s ∧ nearest x = 0)
    ∨ ∃ (m : ℕ) (e : ℤ) (hm : 0 < m), unpackedOf s x = .finite s m e hm ∧ IsCanonical m e
      ∧ nearest x = m * 2 ^ e := by
  let N := roundEven (x / 2 ^ quantum x)
  have hN : N ≤ 2 ^ 53 :=
    roundEven_le (div_nonneg hx (zpow_two_pos _).le) (mod_cast (div_quantum_lt x).le)
  have hnearest : nearest x = N * 2 ^ quantum x := rfl
  by_cases hzero : N = 0
  · left
    refine ⟨dif_pos hzero, ?_⟩
    rw [hnearest, hzero, Nat.cast_zero, zero_mul]
  · right
    have hpos : 0 < x := by
      rcases hx.eq_or_lt with rfl | hpos
      · exact absurd (by simp [N, roundEven]) hzero
      · exact hpos
    by_cases hfull : N = 2 ^ 53
    · -- one bit too many: the power of two has its canonical parts one exponent above
      refine ⟨2 ^ 52, quantum x + 1, by positivity, ?_, ⟨by norm_num, ?_, .inr le_rfl⟩, ?_⟩
      · unfold unpackedOf
        exact (dif_neg hzero).trans (if_pos hfull)
      · have := le_quantum x
        omega
      · rw [hnearest, hfull, zpow_add_one₀ two_ne_zero]
        push_cast
        ring
    · refine ⟨N, quantum x, Nat.pos_of_ne_zero hzero, ?_, ⟨by omega, le_quantum x, ?_⟩, hnearest⟩
      · unfold unpackedOf
        exact (dif_neg hzero).trans (if_neg hfull)
      · by_cases hq : quantum x = -1074
        · exact .inl hq
        · have hbits := le_div_quantum hpos hq
          exact .inr (le_roundEven (mod_cast hbits))

/-- The exponent of a canonical double is the greatest one for its size. -/
theorem IsCanonical.exponent_le_iff {m : ℕ} {e : ℤ} (h : IsCanonical m e) :
    e ≤ 971 ↔ (m * 2 ^ e : ℚ) < bound := by
  constructor
  · intro he
    have hlt : (m * 2 ^ e : ℚ) < 2 ^ 53 * 2 ^ e :=
      mul_lt_mul_of_pos_right (mod_cast h.mantissa) (zpow_two_pos e)
    have hle : (2 : ℚ) ^ e ≤ 2 ^ (971 : ℤ) := zpow_le_zpow_right₀ one_le_two he
    calc (m * 2 ^ e : ℚ) < 2 ^ 53 * 2 ^ e := hlt
      _ ≤ 2 ^ 53 * 2 ^ (971 : ℤ) := mul_le_mul_of_nonneg_left hle (by positivity)
      _ = bound := bound_eq.symm
  · intro hlt
    by_contra he
    -- above the greatest exponent the first bit is set
    have hbits : (2 ^ 52 : ℚ) ≤ m := mod_cast h.normal.resolve_left (by omega)
    have hle : (2 : ℚ) ^ (972 : ℤ) ≤ 2 ^ e := zpow_le_zpow_right₀ one_le_two (by omega)
    have hge : bound ≤ m * 2 ^ e := by
      unfold bound
      rw [show (1024 : ℤ) = 52 + 972 by norm_num, zpow_add₀ two_ne_zero, zpow_ofNat 2 52]
      exact mul_le_mul hbits hle (zpow_two_pos _).le (Nat.cast_nonneg m)
    linarith

/-- A rounded double that is not too large has the size that it was rounded to. -/
theorem ofFloat?_rounded (negative : Bool) {x : ℚ} (hx : 0 ≤ x) (hfin : nearest x < bound) :
    ∃ b, Binary.ofFloat? (rounded negative x) = some b ∧ b.negative = negative
      ∧ size b = nearest x := by
  unfold rounded
  rw [ofFloat?_ofModel_pack]
  rcases unpackedOf_cases (signOf negative) hx with ⟨hu, hn⟩ | ⟨m, e, hm, hu, hc, hn⟩
  · rw [hu, UnpackedFloat.pack, unpack_packedZero]
    refine ⟨_, rfl, isNegative_signOf negative, ?_⟩
    rw [hn]
    simp [size]
  · rw [hn] at hfin ⊢
    rw [hu, unpack_pack _ hm hc (hc.exponent_le_iff.2 hfin)]
    exact ⟨_, rfl, isNegative_signOf negative, rfl⟩

/-- What is nearer to the greatest double than to the bound is not too large for a double. -/
theorem nearest_lt_bound {x : ℚ} (hx : 0 ≤ x) (h : x < (2 ^ 53 - 1 / 2) * 2 ^ (971 : ℤ)) :
    nearest x < bound := by
  have hmax : IsCanonical (2 ^ 53 - 1) 971 := ⟨by norm_num, by norm_num, .inr (by norm_num)⟩
  have hfin := hmax.exponent_le_iff.1 le_rfl
  rcases le_total x ((2 ^ 53 - 1 : ℕ) * 2 ^ (971 : ℤ)) with hle | hge
  · refine (nearest_mono hx hle).trans_lt ?_
    rwa [nearest_eq_self hmax.mantissa hmax.exponent]
  · have hcast : ((2 ^ 53 - 1 : ℕ) : ℚ) = 2 ^ 53 - 1 := by norm_num
    have hhi : x < ((2 ^ 53 - 1 : ℕ) + 1 / 2) * 2 ^ (971 : ℤ) := by
      rw [hcast]
      linarith
    have hlo : ((2 ^ 53 - 1 : ℕ) - 1 / 2 : ℚ) * 2 ^ (971 : ℤ) < x := by
      rw [sub_mul]
      exact (sub_lt_self _ (mul_pos one_half_pos (zpow_two_pos 971))).trans_le hge
    rw [nearest_eq_of_between hmax (by norm_num) (by simpa using hlo.le) hhi.le fun _ => ⟨hlo, hhi⟩]
    exact hfin

theorem nearest_natCast_lt_bound {n : ℕ} (h : 2 * n < (2 ^ 54 - 1) * 2 ^ 971) :
    nearest n < bound := by
  apply nearest_lt_bound (Nat.cast_nonneg n)
  have hq : (2 * n : ℚ) < (2 ^ 54 - 1 : ℕ) * (2 ^ 971 : ℕ) := mod_cast h
  rw [Nat.cast_pow, Nat.cast_ofNat] at hq
  rw [zpow_ofNat]
  generalize (2 : ℚ) ^ 971 = unit at hq ⊢
  push_cast at hq
  linarith

/-- A rounded double that is too large is infinite. -/
theorem unpack_rounded_of_le (negative : Bool) {x : ℚ} (hx : 0 ≤ x) (hinf : bound ≤ nearest x) :
    (rounded negative x).toModel.unpack = .infinity (signOf negative) := by
  show UnpackedFloat.unpack .binary64 (UnpackedFloat.pack .binary64 _) = _
  rcases unpackedOf_cases (signOf negative) hx with ⟨hu, hn⟩ | ⟨m, e, hm, hu, hc, hn⟩
  · rw [hn] at hinf
    exact absurd bound_pos (not_lt.2 hinf)
  · have he : 971 < e := by
      rw [← not_le, hc.exponent_le_iff, not_lt, ← hn]
      exact hinf
    rw [hu, unpack_pack_of_lt _ hm he]

/-- A double is the one next to its size. -/
theorem rounded_size {x : Float} {b : Binary} (h : Binary.ofFloat? x = some b) :
    rounded b.negative (size b) = x := by
  obtain ⟨hc, he⟩ := isCanonical_of_ofFloat? h
  have hself : nearest (size b) = size b := nearest_eq_self hc.mantissa hc.exponent
  have hfin : nearest (size b) < bound := by
    rw [hself]
    exact hc.exponent_le_iff.1 he
  obtain ⟨b', hb', hsign, hsize⟩ := ofFloat?_rounded b.negative (size_nonneg b) hfin
  exact eq_of_size_eq hb' h hsign (hsize.trans hself)

/-! ## Arithmetic -/

/-- What the arithmetic makes of a finite double. -/
theorem unpack_cases {x : Float} {b : Binary} (h : Binary.ofFloat? x = some b) :
    (x.toModel.unpack = .zero (signOf b.negative) ∧ b.mantissa = 0)
    ∨ ∃ hm, x.toModel.unpack = .finite (signOf b.negative) b.mantissa b.exponent hm := by
  rw [ofFloat?_eq] at h
  cases hu : x.toModel.unpack with
  | infinity s => rw [hu] at h; cases h
  | notANumber => rw [hu] at h; cases h
  | zero s =>
    rw [hu] at h
    cases h
    left
    rw [signOf_isNegative]
    exact ⟨rfl, rfl⟩
  | finite s m e hm =>
    rw [hu] at h
    cases h
    right
    rw [signOf_isNegative]
    exact ⟨hm, rfl⟩

theorem size_eq_zero {b : Binary} (h : b.mantissa = 0) : size b = 0 := by
  unfold size
  rw [h, Nat.cast_zero, zero_mul]

theorem unpackedOf_zero (s : Sign) : unpackedOf s 0 = .zero s := by
  unfold unpackedOf
  apply dif_pos
  rw [zero_div, ← Nat.cast_zero, roundEven_natCast]

theorem signOf_mul (a b : Bool) : signOf a * signOf b = signOf (a ^^ b) := by
  cases a <;> cases b <;> rfl

theorem signOf_div (a b : Bool) : signOf a / signOf b = signOf (a ^^ b) := by
  cases a <;> cases b <;> rfl

section

variable {x y : Float} {a b : Binary} (hx : Binary.ofFloat? x = some a)
  (hy : Binary.ofFloat? y = some b)

include hx hy

/-- A product is the rounded product of the sizes. -/
theorem mul_eq : x * y = rounded (a.negative ^^ b.negative) (size a * size b) := by
  have hca := (isCanonical_of_ofFloat? hx).1
  have hcb := (isCanonical_of_ofFloat? hy).1
  show Float.ofModel (.pack (UnpackedFloat.mul .binary64 x.toModel.unpack y.toModel.unpack)) = _
  unfold rounded
  rw [← signOf_mul]
  congr 2
  rcases unpack_cases hx with ⟨hux, hma⟩ | ⟨hma, hux⟩
  · rw [size_eq_zero hma, zero_mul, unpackedOf_zero, hux]
    rcases unpack_cases hy with ⟨huy, _⟩ | ⟨_, huy⟩ <;> rw [huy] <;> rfl
  · rcases unpack_cases hy with ⟨huy, hmb⟩ | ⟨hmb, huy⟩
    · rw [size_eq_zero hmb, mul_zero, unpackedOf_zero, hux, huy]
      rfl
    · rw [hux, huy]
      show UnpackedFloat.roundWithAccuracy .binary64 _ (a.mantissa * b.mantissa)
        (a.exponent + b.exponent) .exact = _
      have hpos : 0 < a.mantissa * b.mantissa := Nat.mul_pos hma hmb
      -- the product is short only if both factors have the least exponent
      have hbits : 2 ^ 52 ≤ a.mantissa * b.mantissa ∨ a.exponent + b.exponent ≤ -1074 := by
        rcases hca.normal with ha | ha
        · rcases hcb.normal with hb | hb
          · right
            omega
          · exact .inl (hb.trans (Nat.le_mul_of_pos_left _ hma))
        · exact .inl (ha.trans (Nat.le_mul_of_pos_right _ hmb))
      rw [roundWithAccuracy_eq _ (mod_cast hpos) (locates_exact _) hbits]
      congr 1
      unfold size
      rw [zpow_add₀ two_ne_zero]
      push_cast
      ring

/-- A quotient is the rounded quotient of the sizes. -/
theorem div_eq (hb : b.mantissa ≠ 0) :
    x / y = rounded (a.negative ^^ b.negative) (size a / size b) := by
  show Float.ofModel (.pack (UnpackedFloat.div .binary64 x.toModel.unpack y.toModel.unpack)) = _
  unfold rounded
  rw [← signOf_div]
  congr 2
  rcases unpack_cases hy with ⟨_, hmb⟩ | ⟨hmb, huy⟩
  · exact absurd hmb hb
  · rcases unpack_cases hx with ⟨hux, hma⟩ | ⟨hma, hux⟩
    · rw [size_eq_zero hma, zero_div, unpackedOf_zero, hux, huy]
      rfl
    · rw [hux, huy, div_finite]
      rfl

end

/-- An integer of 64 bits becomes the double next to it. -/
theorem toFloat_eq {n : ℕ} (hn : n < 2 ^ 64) : n.toUInt64.toFloat = rounded false n := by
  have hself : n.toUInt64.toNat = n := Nat.mod_eq_of_lt hn
  show Float.ofModel (.pack (UnpackedFloat.ofNat .binary64 n.toUInt64.toNat)) = _
  rw [hself, ofNat_eq]
  unfold rounded
  split
  · next h =>
    rw [h, Nat.cast_zero, unpackedOf_zero]
    rfl
  · rfl

/-- With its bits behind the point shifted out, the size is a natural number. -/
theorem size_mul_two_pow (b : Binary) :
    size b * 2 ^ (-b.exponent).toNat = b.mantissa * 2 ^ b.exponent.toNat := by
  have hexp : (2 : ℚ) ^ b.exponent * 2 ^ (-b.exponent).toNat = 2 ^ b.exponent.toNat := by
    rw [← zpow_natCast, ← zpow_natCast, ← zpow_add₀ two_ne_zero]
    congr 1
    omega
  rw [size, mul_assoc, hexp]

/-- The parts of a double are those of an integer. -/
theorem size_eq_natCast_iff {b : Binary} {n : ℕ} :
    size b = n ↔ b.mantissa * 2 ^ b.exponent.toNat = n * 2 ^ (-b.exponent).toNat := by
  have hpos : (0 : ℚ) < 2 ^ (-b.exponent).toNat := by positivity
  rw [← mul_left_inj' hpos.ne', size_mul_two_pow]
  norm_cast

/-- The powers of ten that are doubles. -/
theorem tenToThe_exact : ∀ k : Fin 23, (Binary.ofFloat? (Decimal.tenToThe k)).any fun b =>
    !b.negative && b.mantissa * 2 ^ b.exponent.toNat = 10 ^ k.val * 2 ^ (-b.exponent).toNat := by
  decide +kernel

/-- A power of ten becomes the double next to it. -/
theorem tenToThe_eq {k : ℕ} (hk : k ≤ 308) : Decimal.tenToThe k = rounded false (10 ^ k) := by
  -- the small powers are divided out of the decimal exactly, the large ones are multiplied up
  by_cases hsmall : k ≤ 22
  · have hexact := tenToThe_exact ⟨k, by omega⟩
    obtain ⟨b, hb, hparts⟩ := Option.any_eq_true _ _ |>.1 hexact
    rw [Bool.and_eq_true, decide_eq_true_eq, Bool.not_eq_true'] at hparts
    have hsize : size b = (10 ^ k : ℕ) := size_eq_natCast_iff.2 hparts.2
    rw [← rounded_size hb, hparts.1, hsize]
    push_cast
    rfl
  · unfold Decimal.tenToThe Float.ofScientific
    rw [dif_neg (by omega)]
    show Float.ofModel (.pack (UnpackedFloat.ofScientific .binary64 1 (Int.ofNat k))) = _
    rw [ofScientific_eq one_pos hk, Nat.cast_one, one_mul]
    rfl

/-! ## Finiteness -/

theorem isFinite_iff {x : Float} : x.isFinite = true ↔ ∃ b, Binary.ofFloat? x = some b := by
  rw [ofFloat?_eq]
  show x.toModel.unpack.isFinite = true ↔ _
  cases x.toModel.unpack with
  | infinity s =>
    constructor
    · intro h
      cases h
    · rintro ⟨_, h⟩
      cases h
  | notANumber =>
    constructor
    · intro h
      cases h
    · rintro ⟨_, h⟩
      cases h
  | zero s => exact ⟨fun _ => ⟨_, rfl⟩, fun _ => rfl⟩
  | finite s m e hm => exact ⟨fun _ => ⟨_, rfl⟩, fun _ => rfl⟩

theorem isInf_eq_false {x : Float} {b : Binary} (h : Binary.ofFloat? x = some b) :
    x.isInf = false := by
  rcases unpack_cases h with ⟨hu, _⟩ | ⟨_, hu⟩
  all_goals
    show x.toModel.unpack.isInf = false
    rw [hu]
    rfl

/-- Only zeros compare equal to zero. -/
theorem mantissa_eq_zero_of_beq {x : Float} {b : Binary} (h : Binary.ofFloat? x = some b)
    (hz : (x == 0.0) = true) : b.mantissa = 0 := by
  have hz : x.toModel.unpack.beq (.zero .positive) = true := hz
  rcases unpack_cases h with ⟨_, hm⟩ | ⟨hm, hu⟩
  · exact hm
  · rw [hu] at hz
    cases hn : b.negative <;> rw [hn] at hz <;> exact absurd hz Bool.false_ne_true

theorem neg_signOf (negative : Bool) : -signOf negative = signOf !negative := by
  cases negative <;> rfl

/-- A negated double has the other sign and the same size. -/
theorem neg_eq {x : Float} {b : Binary} (h : Binary.ofFloat? x = some b) :
    Binary.ofFloat? (-x) = some { b with negative := !b.negative } := by
  obtain ⟨hc, he⟩ := isCanonical_of_ofFloat? h
  show Binary.ofFloat? (.ofModel (.pack x.toModel.unpack.neg)) = _
  rw [ofFloat?_ofModel_pack]
  rcases unpack_cases h with ⟨hu, hm⟩ | ⟨hm, hu⟩
  · -- a zero has the least exponent, also once its sign is changed
    have he' : b.exponent = -1074 := hc.normal.resolve_right (by omega)
    rw [hu]
    show partsOf? (UnpackedFloat.unpack .binary64 (UnpackedFloat.packedZero .binary64
      (-signOf b.negative))) = _
    rw [unpack_packedZero, neg_signOf, hm, he']
    show some (Binary.mk _ _ _) = _
    rw [isNegative_signOf]
  · rw [hu]
    show partsOf? (UnpackedFloat.unpack .binary64 (UnpackedFloat.pack .binary64
      (.finite (-signOf b.negative) b.mantissa b.exponent hm))) = _
    rw [unpack_pack _ hm hc he, neg_signOf]
    show some (Binary.mk _ _ _) = _
    rw [isNegative_signOf]

/-! ## Doubles that are known by sign and size -/

/-- The double is finite and has this sign and this size. -/
def Denotes (f : Float) (negative : Bool) (x : ℚ) : Prop :=
  ∃ b, Binary.ofFloat? f = some b ∧ b.negative = negative ∧ size b = x

namespace Denotes

variable {f g : Float} {s t : Bool} {x y : ℚ}

theorem nonneg (h : Denotes f s x) : 0 ≤ x := by
  obtain ⟨b, _, _, rfl⟩ := h
  exact size_nonneg b

theorem lt_bound (h : Denotes f s x) : x < bound := by
  obtain ⟨b, hb, _, rfl⟩ := h
  obtain ⟨hc, he⟩ := isCanonical_of_ofFloat? hb
  exact hc.exponent_le_iff.1 he

theorem nearest_eq (h : Denotes f s x) : nearest x = x := by
  obtain ⟨b, hb, _, rfl⟩ := h
  obtain ⟨hc, _⟩ := isCanonical_of_ofFloat? hb
  exact nearest_eq_self hc.mantissa hc.exponent

/-- Sign and size are all that there is to a finite double. -/
theorem eq_iff (hf : Denotes f s x) (hg : Denotes g s y) : f = g ↔ x = y := by
  obtain ⟨a, ha, hsa, rfl⟩ := hf
  obtain ⟨b, hb, hsb, rfl⟩ := hg
  constructor
  · rintro rfl
    rw [Option.some.inj (ha.symm.trans hb)]
  · exact eq_of_size_eq ha hb (hsa.trans hsb.symm)

theorem toBits_eq_iff (hf : Denotes f s x) (hg : Denotes g s y) :
    f.toBits = g.toBits ↔ x = y := by
  rw [← hf.eq_iff hg]
  exact ⟨eq_of_toBits_eq, congrArg Float.toBits⟩

theorem isFinite (h : Denotes f s x) : f.isFinite = true := by
  obtain ⟨b, hb, _⟩ := h
  exact isFinite_iff.2 ⟨b, hb⟩

theorem isInf (h : Denotes f s x) : f.isInf = false := by
  obtain ⟨b, hb, _⟩ := h
  exact isInf_eq_false hb

theorem rounded (s : Bool) (hx : 0 ≤ x) (hfin : nearest x < bound) :
    Denotes (rounded s x) s (nearest x) :=
  ofFloat?_rounded s hx hfin

theorem mul_eq (hf : Denotes f s x) (hg : Denotes g t y) :
    f * g = Double.rounded (s ^^ t) (x * y) := by
  obtain ⟨a, ha, rfl, rfl⟩ := hf
  obtain ⟨b, hb, rfl, rfl⟩ := hg
  exact Double.mul_eq ha hb

/-- A product that is not infinite is not too large. -/
theorem nearest_mul_lt (hf : Denotes f s x) (hg : Denotes g t y) (h : (f * g).isInf = false) :
    nearest (x * y) < bound := by
  rw [hf.mul_eq hg] at h
  by_contra hinf
  have hunpack := unpack_rounded_of_le (s ^^ t) (mul_nonneg hf.nonneg hg.nonneg) (not_lt.1 hinf)
  have htrue : (Double.rounded (s ^^ t) (x * y)).isInf = true := by
    show (Double.rounded (s ^^ t) (x * y)).toModel.unpack.isInf = true
    rw [hunpack]
    rfl
  rw [htrue] at h
  cases h

theorem div_eq (hf : Denotes f s x) (hg : Denotes g t y) (hy : y ≠ 0) :
    f / g = Double.rounded (s ^^ t) (x / y) := by
  obtain ⟨a, ha, rfl, rfl⟩ := hf
  obtain ⟨b, hb, rfl, rfl⟩ := hg
  exact Double.div_eq ha hb fun hm => hy (size_eq_zero hm)

theorem neg (h : Denotes f s x) : Denotes (-f) (!s) x := by
  obtain ⟨b, hb, rfl, rfl⟩ := h
  exact ⟨_, neg_eq hb, rfl, rfl⟩

end Denotes

end AlertRegistry.Double
