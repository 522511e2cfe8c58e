import AlertRegistry.Proofs.Alert.Lawful
import AlertRegistry.Proofs.Repository.Operations

/-!
# Which thresholds are restored

The number of a threshold is stored as its shortest decimal, which determines it, but it is read
with up to three roundings. So the bits that come back are those that were stored exactly for the
doubles that these roundings restore, and there are others.
-/

namespace AlertRegistry

open Decimal (Binary)
open Double (Denotes)

namespace AlertRow

/-- A threshold comes back from its row, and from a repository, with its unit. It comes back with
all its bits exactly if what is read for its shortest decimal is its size: so if the digits make up
an integer of 53 bits and the power of ten that scales them is at most 22 in size. -/
theorem threshold_bits_restored_iff {a : Alert} {row : AlertRow} (h : ofAlert a = .ok row) :
    ∃ b back, Binary.ofFloat? a.threshold.value = some b ∧ row.toAlert = .ok back
      ∧ back.threshold.unit = a.threshold.unit
      ∧ (back.threshold.value.toBits = a.threshold.value.toBits
        ↔ Json.readBack b = Double.size b)
      ∧ ((Json.numberStyle.numeral b).written.1 < 2 ^ 53 →
        (Json.numberStyle.numeral b).written.2.natAbs ≤ 22 →
        back.threshold.value.toBits = a.threshold.value.toBits)
      ∧ ∀ (s : Store) (rows : List AlertRow) (r r' : Repository Alert) (now : Int),
        Ready Alert s rows → (∀ u ∈ rows, u.version < Text.maxInt64) → r.state = .opened →
        r'.state = .opened → (r'.get a.id (r.upsert now a s).store).result = .ok (some back) := by
  obtain ⟨side, b, x, _, hb, hback, hden⟩ := exists_toAlert_eq_ok h
  have hself : Denotes a.threshold.value b.negative (Double.size b) := ⟨b, hb, rfl, rfl⟩
  have hbits := hden.toBits_eq_iff hself
  refine ⟨b, restored a side x, hb, hback, rfl, hbits, ?_, ?_⟩
  · intro hmantissa hpower
    exact hbits.2 (Json.readBack_eq_size (Double.isCanonical_of_ofFloat? hb).1 hmantissa hpower)
  · intro s rows r r' now hs hmax ho ho'
    exact Repository.get_upsert hs ho ho' now h hback hmax

/-- An alert with the double next to `1e-23` for its threshold. -/
def tinyAlert : Alert :=
  { watchedAlert with threshold := { value := Float.ofBits 0x3B282DB34012B251 } }

theorem ofFloat?_tiny : Binary.ofFloat? tinyAlert.threshold.value
    = some { negative := false, mantissa := 0x182DB34012B251, exponent := -129 } := by
  decide +kernel

/-- The double next to `1e-23` is written so, and read as the quotient of one and the double next to
`1e23`, which is the double above it. -/
theorem threshold_tiny_is_moved : ∃ row back, ofAlert tinyAlert = .ok row ∧ row.toAlert = .ok back
    ∧ back.threshold.value.toBits = 0x3B282DB34012B252
    ∧ back.threshold.value.toBits ≠ tinyAlert.threshold.value.toBits := by
  have hside : SideRecord.ofExtensions tinyAlert.extensions
      = .ok (some { severity := some "high" }) := by
    with_unfolding_all rfl
  have hrow := ofAlert_eq_ok_iff.2 ⟨by decide +kernel, _, hside, rfl⟩
  obtain ⟨x, hback, hden⟩ := toAlert_rowOf ofFloat?_tiny (some { severity := some "high" })
  obtain ⟨hc, he⟩ := Double.isCanonical_of_ofFloat? ofFloat?_tiny
  obtain ⟨y, hy, hden'⟩ := Json.float?_numeral hc he
  -- what the row denotes is known up to its size, so the bits are those that are read
  have hread : (Json.numberStyle.numeral
      { negative := false, mantissa := 0x182DB34012B251, exponent := -129 }).float?.map
        Float.toBits = some 0x3B282DB34012B252 := by
    decide +kernel
  rw [hy] at hread
  have hbits : x.toBits = 0x3B282DB34012B252 :=
    ((hden.toBits_eq_iff hden').2 rfl).trans (Option.some.inj hread)
  refine ⟨_, _, hrow, hback, hbits, ?_⟩
  show x.toBits ≠ _
  rw [hbits]
  decide +kernel

/-- The threshold of an alert that needs few digits is restored. -/
theorem threshold_twelve_is_restored : ∃ row back, ofAlert watchedAlert = .ok row
    ∧ row.toAlert = .ok back
    ∧ back.threshold.value.toBits = watchedAlert.threshold.value.toBits := by
  obtain ⟨b, back, hb, hback, _, _, hfew, _⟩ := threshold_bits_restored_iff ofAlert_watchedAlert
  have htwelve : Binary.ofFloat? watchedAlert.threshold.value
      = some { negative := false, mantissa := 3 * 2 ^ 51, exponent := -49 } := by
    decide +kernel
  obtain rfl := Option.some.inj (htwelve.symm.trans hb)
  exact ⟨_, back, ofAlert_watchedAlert, hback, hfew (by decide +kernel) (by decide +kernel)⟩

end AlertRow

end AlertRegistry
