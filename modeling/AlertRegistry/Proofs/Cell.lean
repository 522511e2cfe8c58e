import AlertRegistry.Proofs.Double.Bits
import AlertRegistry.Table.Cell

/-!
# The order of cells

Every cell but a double that is not a number can be compared with itself and with integers. That is
what keeps the second stamp of a tuple from going before the first one, whatever cells these are.
-/

namespace AlertRegistry

open Float.Model (UnpackedFloat)

namespace Double

theorem le_iff {x y : Float} : x ≤ y ↔ x.toModel.unpack.le y.toModel.unpack = true := by
  show Float.le x y = true ↔ _
  unfold Float.le
  exact decide_eq_true_iff

theorem lt_iff {x y : Float} : x < y ↔ x.toModel.unpack.lt y.toModel.unpack = true := by
  show Float.lt x y = true ↔ _
  unfold Float.lt
  exact decide_eq_true_iff

/-- A double that is a number is at most itself. -/
theorem le_refl {x : Float} (h : x.isNaN = false) : x ≤ x := by
  have hu : x.toModel.unpack.isNaN = false := h
  rw [le_iff]
  unfold UnpackedFloat.le
  cases hx : x.toModel.unpack with
  | infinity s => cases s <;> rfl
  | notANumber =>
    rw [hx] at hu
    cases hu
  | zero s => rfl
  | finite s m e hm => cases s <;> simp [UnpackedFloat.compare]

/-- A number that is not finite has a sign. -/
theorem lt_zero_or_zero_lt {x : Float} (h : x.isNaN = false)
    (hx : Decimal.Binary.ofFloat? x = none) : 0.0 < x ∨ x < 0.0 := by
  have hu : x.toModel.unpack.isNaN = false := h
  have hzero : (0.0 : Float).toModel.unpack = .zero .positive := rfl
  rw [ofFloat?_eq] at hx
  rw [lt_iff, lt_iff, hzero]
  cases hc : x.toModel.unpack with
  | infinity s =>
    cases s with
    | positive => exact .inl rfl
    | negative => exact .inr rfl
  | notANumber =>
    rw [hc] at hu
    cases hu
  | zero s =>
    rw [hc] at hx
    cases hx
  | finite s m e hm =>
    rw [hc] at hx
    cases hx

end Double

namespace Cell

/-- The cell is a double that is not a number. -/
def isNaN : Cell → Bool
  | real x => x.isNaN
  | _ => false

theorem bytesLe_refl (bs : List UInt8) : bytesLe bs bs = true := by
  induction bs with
  | nil => rfl
  | cons b bs ih => simp [bytesLe, ih]

theorem le_refl {c : Cell} (h : c.isNaN = false) : le c c = true := by
  cases c with
  | null => rfl
  | integer n => exact decide_eq_true (Int.le_refl n)
  | real x => exact decide_eq_true (Double.le_refl h)
  | text s => exact decide_eq_true (Std.le_refl s)
  | blob bs => exact bytesLe_refl bs

/-- A number is at most another one, or the other way round. -/
theorem le_integer_total {c : Cell} (h : c.isNaN = false) (hc : c ≠ null) (n : Int) :
    le (integer n) c = true ∨ le c (integer n) = true := by
  cases c with
  | null => exact absurd rfl hc
  | integer m =>
    simp only [le, decide_eq_true_eq]
    omega
  | real x =>
    show integerLeReal n x = true ∨ realLeInteger x n = true
    unfold integerLeReal realLeInteger
    cases hb : Decimal.Binary.ofFloat? x with
    | none => simpa using Double.lt_zero_or_zero_lt h hb
    | some b =>
      simp only [decide_eq_true_eq]
      exact Int.le_total _ _
  | text s => exact .inl rfl
  | blob bs => exact .inl rfl

/-- The later one of a cell and a stamp is not before the cell. -/
theorem permitsGe_later {c : Cell} (h : c.isNaN = false) (n : Int) :
    (later c (integer n)).permitsGe c = true := by
  by_cases hc : c = null
  · simp [permitsGe, hc]
  · have hle : le c (later c (integer n)) = true := by
      unfold later
      split
      · exact le_refl h
      · next hn => exact (le_integer_total h hc n).resolve_left hn
    simp [permitsGe, hle]

end Cell

end AlertRegistry
