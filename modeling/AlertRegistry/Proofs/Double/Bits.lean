import AlertRegistry.Decimal.Binary
import AlertRegistry.Proofs.Double.Rounding
import Mathlib

/-!
# The bits of doubles

The parts that `Decimal.Binary.ofFloat?` takes out of the bits of a double are those that the
arithmetic of doubles works on (`ofFloat?_eq`), and canonical parts that are put together are taken
out again (`unpack_pack`).
-/

namespace AlertRegistry.Double

open Decimal (Binary)
open Float.Model (Format UnpackedFloat)
open Float.Model.UnpackedFloat (Sign packComponents unpackMantissa unpackExponent unpackSign)

/-- The sign is a minus. -/
def isNegative : Sign → Bool
  | .negative => true
  | .positive => false

/-- The parts of a number that is not infinite. -/
def partsOf? : UnpackedFloat → Option Binary
  | .zero s => some { negative := isNegative s, mantissa := 0, exponent := -1074 }
  | .finite s m e _ => some { negative := isNegative s, mantissa := m, exponent := e }
  | _ => none

/-! ## Taking apart -/

section

variable (b : BitVec Format.binary64.numBits)

theorem toNat_unpackMantissa : (unpackMantissa b).toNat = b.toNat % 2 ^ 52 := by
  unfold unpackMantissa
  rw [BitVec.toNat_cast, BitVec.extractLsb_toNat]
  rfl

theorem toNat_unpackExponent : (unpackExponent b).toNat = b.toNat / 2 ^ 52 % 2 ^ 11 := by
  unfold unpackExponent
  rw [BitVec.toNat_cast, BitVec.extractLsb_toNat, Nat.shiftRight_eq_div_pow]
  rfl

theorem toNat_unpackSign : (unpackSign b).toNat = b.toNat / 2 ^ 63 := by
  have hlt : b.toNat < 2 ^ 64 := b.isLt
  unfold unpackSign
  rw [BitVec.toNat_cast, BitVec.extractLsb_toNat, Nat.shiftRight_eq_div_pow]
  show b.toNat / 2 ^ 63 % 2 ^ 1 = _
  omega

theorem toNat_one_append (c : BitVec 52) : (1#1 ++ c).toNat = 2 ^ 52 + c.toNat := by
  rw [BitVec.toNat_append, ← Nat.shiftLeft_add_eq_or_of_lt c.isLt, Nat.shiftLeft_eq]
  rfl

theorem isNegative_ofBitVec (c : BitVec 1) :
    isNegative (Sign.ofBitVec c) = decide (c.toNat = 1) := by
  have hlt := c.isLt
  unfold Sign.ofBitVec
  by_cases h : c = 0#1
  · rw [if_pos h, h]
    rfl
  · have h1 : c.toNat ≠ 0 := fun h0 => h (BitVec.eq_of_toNat_eq h0)
    rw [if_neg h]
    exact (decide_eq_true (by omega)).symm

end

/-- The fields of a double are cut out at powers of two. -/
theorem ofFloat?_fields (x : Float) : Binary.ofFloat? x =
    let bits := x.toBits.toNat
    if bits / 2 ^ 52 % 2 ^ 11 = 2047 then none
    else if bits / 2 ^ 52 % 2 ^ 11 = 0 then
      some ⟨bits / 2 ^ 63 = 1, bits % 2 ^ 52, -1074⟩
    else
      some ⟨bits / 2 ^ 63 = 1, 2 ^ 52 + bits % 2 ^ 52, (bits / 2 ^ 52 % 2 ^ 11 : ℕ) - 1075⟩ := rfl

/-- The parts of a double are those that its arithmetic works on. -/
theorem ofFloat?_eq (x : Float) : Binary.ofFloat? x = partsOf? x.toModel.unpack := by
  let b : BitVec Format.binary64.numBits := x.toModel.toBits.toBitVec
  have hb : x.toBits.toNat = b.toNat := rfl
  have hs : isNegative (Sign.ofBitVec (unpackSign b)) = decide (b.toNat / 2 ^ 63 = 1) := by
    rw [isNegative_ofBitVec, toNat_unpackSign]
  have hexp := toNat_unpackExponent b
  have hman := toNat_unpackMantissa b
  show Binary.ofFloat? x = partsOf? (UnpackedFloat.unpack .binary64 b)
  rw [ofFloat?_fields]
  unfold UnpackedFloat.unpack
  dsimp only
  rw [hb]
  by_cases hinf : b.toNat / 2 ^ 52 % 2 ^ 11 = 2047
  · have hvec : unpackExponent b = -1#_ := BitVec.eq_of_toNat_eq (hexp.trans hinf)
    rw [if_pos hinf, if_pos hvec]
    split <;> rfl
  · have hvec : unpackExponent b ≠ -1#_ := fun h => hinf (by rw [← hexp, h]; rfl)
    rw [if_neg hinf, if_neg hvec]
    by_cases hzero : b.toNat / 2 ^ 52 % 2 ^ 11 = 0
    · have hvec0 : unpackExponent b = 0#_ := BitVec.eq_of_toNat_eq (hexp.trans hzero)
      rw [if_pos hzero, if_pos hvec0]
      -- zeros are told from the other doubles with the least exponent only by the arithmetic
      split
      · next hm =>
        have hm0 : b.toNat % 2 ^ 52 = 0 := by rw [← hman, hm]; rfl
        show some (Binary.mk _ _ _) = some (Binary.mk _ _ _)
        rw [hs, hm0]
      · show some (Binary.mk _ _ _) = some (Binary.mk _ _ _)
        rw [hs, hman, hvec0]
        rfl
    · have hvec0 : unpackExponent b ≠ 0#_ := fun h => hzero (by rw [← hexp, h]; rfl)
      rw [if_neg hzero, if_neg hvec0]
      have hone : (1#1 ++ unpackMantissa b).toNat = 2 ^ 52 + b.toNat % 2 ^ 52 := by
        rw [toNat_one_append, hman]
      show some (Binary.mk _ _ _) = some (Binary.mk _ _ _)
      rw [hs, hone, hexp]
      rfl

/-! ## Putting together -/

theorem unpackSign_packComponents (s : Sign) (c : BitVec 11) (f : BitVec 52) :
    unpackSign (packComponents .binary64 s c f) = s.toBitVec := by
  apply BitVec.eq_of_toNat_eq
  have hf := f.isLt
  have hc := c.isLt
  have hvalue : (packComponents .binary64 s c f).toNat
      = s.toBitVec.toNat * 2 ^ 63 + c.toNat * 2 ^ 52 + f.toNat := by
    show ((s.toBitVec ++ c) ++ f).toNat = _
    rw [BitVec.toNat_append, BitVec.toNat_append, ← Nat.shiftLeft_add_eq_or_of_lt hc,
      ← Nat.shiftLeft_add_eq_or_of_lt hf, Nat.shiftLeft_eq, Nat.shiftLeft_eq]
    ring
  rw [toNat_unpackSign, hvalue]
  omega

theorem ofBitVec_toBitVec (s : Sign) : Sign.ofBitVec s.toBitVec = s := by
  cases s <;> rfl

theorem unpack_packedZero (s : Sign) :
    UnpackedFloat.unpack .binary64 (UnpackedFloat.packedZero .binary64 s) = .zero s := by
  cases s <;> rfl

theorem unpack_packedInfinity (s : Sign) :
    UnpackedFloat.unpack .binary64 (UnpackedFloat.packedInfinity .binary64 s) = .infinity s := by
  cases s <;> rfl

theorem toNat_one_append_pos (f : BitVec 52) : 0 < (1#1 ++ f).toNat := by
  rw [toNat_one_append]
  positivity

/-- A stored exponent stands for 53 bits of which the first is not stored. -/
theorem unpack_packComponents (s : Sign) {c : BitVec 11} (f : BitVec 52) (hinf : c ≠ -1#11)
    (hzero : c ≠ 0#11) : UnpackedFloat.unpack .binary64 (packComponents .binary64 s c f)
      = .finite s (1#1 ++ f).toNat (c.toNat - 1075) (toNat_one_append_pos f) := by
  have hexp : unpackExponent (packComponents .binary64 s c f) = c :=
    UnpackedFloat.unpackExponent_packComponents
  have hman : unpackMantissa (packComponents .binary64 s c f) = f :=
    UnpackedFloat.unpackMantissa_packComponents
  unfold UnpackedFloat.unpack
  simp only [hexp, hman, unpackSign_packComponents, ofBitVec_toBitVec]
  rw [if_neg hinf, if_neg hzero]
  rfl

/-- The least exponent goes with fewer bits. -/
theorem unpack_packComponents_zero (s : Sign) {f : BitVec 52} (hf : 0 < f.toNat) :
    UnpackedFloat.unpack .binary64 (packComponents .binary64 s 0#11 f)
      = .finite s f.toNat (-1074) hf := by
  have hexp : unpackExponent (packComponents .binary64 s 0#11 f) = 0#11 :=
    UnpackedFloat.unpackExponent_packComponents
  have hman : unpackMantissa (packComponents .binary64 s 0#11 f) = f :=
    UnpackedFloat.unpackMantissa_packComponents
  have hne : f ≠ 0#52 := by
    rintro rfl
    exact absurd hf (by decide)
  unfold UnpackedFloat.unpack
  simp only [hexp, hman, unpackSign_packComponents, ofBitVec_toBitVec]
  rw [if_neg (by decide), if_pos trivial, dif_neg hne]
  rfl

/-- The exponent is stored with an offset. -/
theorem biased_eq (e : ℤ) :
    e + (Format.exponentBias .binary64 : ℤ) + ((52 : ℕ) : ℤ) = e + 1075 := by
  show e + 1023 + 52 = e + 1075
  ring

/-- What is too large becomes infinite. -/
theorem unpack_pack_of_lt (s : Sign) {m : ℕ} {e : ℤ} (hm : 0 < m) (he : 971 < e) :
    UnpackedFloat.unpack .binary64 (UnpackedFloat.pack .binary64 (.finite s m e hm))
      = .infinity s := by
  unfold UnpackedFloat.pack
  dsimp only
  rw [biased_eq, if_pos (by omega), unpack_packedInfinity]

/-- Canonical parts are taken out as they were put in. -/
theorem unpack_pack (s : Sign) {m : ℕ} {e : ℤ} (hm : 0 < m) (hc : IsCanonical m e) (he : e ≤ 971) :
    UnpackedFloat.unpack .binary64 (UnpackedFloat.pack .binary64 (.finite s m e hm))
      = .finite s m e hm := by
  have hlow := hc.exponent
  unfold UnpackedFloat.pack
  dsimp only
  rw [biased_eq, if_neg (by omega)]
  by_cases hnormal : 2 ^ 52 ≤ m
  · -- 53 bits, the first of which is not stored
    have hlog : m.log2 = 52 := by
      have h1 : 52 ≤ m.log2 := (Nat.le_log2 hm.ne').2 hnormal
      have h2 : m.log2 < 53 := (Nat.log2_lt hm.ne').2 hc.mantissa
      omega
    have hbits : m.log2 + 1 = Format.mantissaBits .binary64 := by
      rw [hlog]
      rfl
    have hexp : (BitVec.ofNat 11 (e + 1075).toNat).toNat = (e + 1075).toNat := by
      rw [BitVec.toNat_ofNat]
      omega
    -- the stored exponent is neither of the two that mean something else
    have hne : ∀ c : BitVec 11, (e + 1075).toNat ≠ c.toNat →
        BitVec.ofNat 11 (e + 1075).toNat ≠ c := by
      intro c hc h
      exact hc (by rw [← hexp, h])
    have hinf : BitVec.ofNat 11 (e + 1075).toNat ≠ -1#11 := by
      apply hne
      show (e + 1075).toNat ≠ 2047
      omega
    have hzero : BitVec.ofNat 11 (e + 1075).toNat ≠ 0#11 := by
      apply hne
      show (e + 1075).toNat ≠ 0
      omega
    rw [if_pos hbits, unpack_packComponents s _ hinf hzero]
    simp only [UnpackedFloat.finite.injEq, true_and]
    constructor
    · rw [toNat_one_append, BitVec.toNat_ofNat]
      have := hc.mantissa
      omega
    · rw [hexp]
      omega
  · -- fewer bits, which go with the least exponent
    have he' : e = -1074 := hc.normal.resolve_right hnormal
    have hlog : m.log2 < 52 := (Nat.log2_lt hm.ne').2 (by omega)
    have hbits : m.log2 + 1 ≠ Format.mantissaBits .binary64 := by
      show m.log2 + 1 ≠ 53
      omega
    have hman : (BitVec.ofNat 52 m).toNat = m := by
      rw [BitVec.toNat_ofNat]
      omega
    rw [if_neg hbits, unpack_packComponents_zero s (hman.symm ▸ hm)]
    simp only [UnpackedFloat.finite.injEq, true_and]
    exact ⟨hman, he'.symm⟩

/-! ## Canonical parts -/

/-- The parts of a double are canonical, and its exponent is not too large. -/
theorem isCanonical_of_ofFloat? {x : Float} {b : Binary} (h : Binary.ofFloat? x = some b) :
    IsCanonical b.mantissa b.exponent ∧ b.exponent ≤ 971 := by
  unfold Binary.ofFloat? at h
  dsimp only at h
  split at h
  · cases h
  · split at h
    · cases h
      refine ⟨⟨?_, ?_, .inl rfl⟩, ?_⟩ <;> dsimp only <;> omega
    · cases h
      refine ⟨⟨?_, ?_, .inr ?_⟩, ?_⟩ <;> dsimp only <;> omega

theorem eq_of_toBits_eq {x y : Float} (h : x.toBits = y.toBits) : x = y := by
  obtain ⟨⟨u, hu⟩⟩ := x
  obtain ⟨⟨v, hv⟩⟩ := y
  have h : u = v := h
  subst h
  rfl

/-- Doubles with the same parts are the same. -/
theorem ofFloat?_injective {x y : Float} {b : Binary} (hx : Binary.ofFloat? x = some b)
    (hy : Binary.ofFloat? y = some b) : x = y := by
  -- the bits can be computed from the parts
  have hbits : ∀ {z : Float}, Binary.ofFloat? z = some b →
      z.toBits.toNat = b.negative.toNat * 2 ^ 63
        + (if b.mantissa < 2 ^ 52 then b.mantissa
          else (b.exponent + 1075).toNat * 2 ^ 52 + (b.mantissa - 2 ^ 52)) := by
    intro z hz
    have hlt : z.toBits.toNat < 2 ^ 64 := z.toBits.toNat_lt
    rw [ofFloat?_fields] at hz
    generalize z.toBits.toNat = n at hz hlt
    have hsplit : n = n / 2 ^ 63 * 2 ^ 63 + (n / 2 ^ 52 % 2 ^ 11 * 2 ^ 52 + n % 2 ^ 52) := by omega
    have hsign : (decide (n / 2 ^ 63 = 1)).toNat = n / 2 ^ 63 := by
      rcases (show n / 2 ^ 63 = 0 ∨ n / 2 ^ 63 = 1 by omega) with h | h <;> rw [h] <;> rfl
    dsimp only at hz
    split at hz
    · cases hz
    · split at hz <;> cases hz <;> dsimp only
      · next hzero =>
        rw [if_pos (by omega), hsign]
        omega
      · have hexp : ((n / 2 ^ 52 % 2 ^ 11 : ℕ) - 1075 + 1075 : ℤ).toNat = n / 2 ^ 52 % 2 ^ 11 := by
          omega
        rw [if_neg (by omega), hexp, hsign]
        omega
  apply eq_of_toBits_eq
  apply UInt64.toNat_inj.1
  rw [hbits hx, hbits hy]

end AlertRegistry.Double
