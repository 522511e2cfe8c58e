import AlertRegistry.Proofs.Reading
import AlertRegistry.SideRecord

/-!
# Side-records shown as extension maps

The map of a side-record has all four keys, and from it the record is read as it was
(`ofExtensions_toExtensions`), provided that its integers have 64 bits. Those of a record that is
read from a map do (`fits_of_ofExtensions`).
-/

namespace AlertRegistry.SideRecord

open Json (Value)

/-- The integers of the record have 64 bits. -/
structure Fits (side : SideRecord) : Prop where
  /-- The number of attempts. -/
  attempts : ∀ n ∈ side.attempts, Text.FitsInt64 n
  /-- The freshness limit. -/
  freshness : ∀ n ∈ side.freshness, Text.FitsInt64 n

variable {side : SideRecord} {e : Extensions} {key : ExtensionKey}

theorem toList_toExtensions (side : SideRecord) :
    (toExtensions (some side)).toList =
      [(ExtensionKey.freshness.name, integerValue side.freshness),
        (ExtensionKey.attempts.name, integerValue side.attempts),
        (ExtensionKey.recipient.name, textValue side.recipient),
        (ExtensionKey.severity.name, textValue side.severity)] := by
  with_unfolding_all rfl

/-- What the map of the record has under a key. -/
def valueAt (side : SideRecord) : ExtensionKey → Value
  | .severity => textValue side.severity
  | .recipient => textValue side.recipient
  | .attempts => integerValue side.attempts
  | .freshness => integerValue side.freshness

theorem get?_toExtensions (side : SideRecord) (key : ExtensionKey) :
    (toExtensions (some side)).get? key.name = some (side.valueAt key) := by
  unfold Extensions.get?
  rw [toList_toExtensions]
  cases key <;> rfl

theorem readText_eq {s : Option String} (h : e.get? key.name = some (textValue s)) :
    readText e key = .ok s := by
  unfold readText
  rw [h]
  cases s <;> rfl

theorem readInteger_eq {n : Option Int} (hn : ∀ k ∈ n, Text.FitsInt64 k)
    (h : e.get? key.name = some (integerValue n)) : readInteger e key = .ok n := by
  unfold readInteger
  rw [h]
  cases n with
  | none => rfl
  | some k =>
    show inRange key k = _
    unfold inRange
    rw [if_pos (hn k rfl)]

/-- A side-record is read from its map as it was. -/
theorem ofExtensions_toExtensions {side : Option SideRecord} (h : ∀ r ∈ side, r.Fits) :
    ofExtensions (toExtensions side) = .ok side := by
  cases side with
  | none => rfl
  | some r =>
    obtain ⟨hattempts, hfreshness⟩ := h r rfl
    have hget := get?_toExtensions r
    unfold ofExtensions
    rw [readText_eq (hget .severity), readText_eq (hget .recipient),
      readInteger_eq hattempts (hget .attempts), readInteger_eq hfreshness (hget .freshness)]
    simp only [toList_toExtensions, ExtensionKey.all, List.all_cons, hget]
    rfl

/-- An integer is only read if it has 64 bits. -/
theorem fits_of_readInteger {n : Option Int} (h : readInteger e key = .ok n) :
    ∀ k ∈ n, Text.FitsInt64 k := by
  intro k hk
  have hinRange : ∀ m, inRange key m = .ok n → Text.FitsInt64 k := by
    intro m hm
    unfold inRange at hm
    split at hm
    · next hfits =>
      cases hm
      cases hk
      exact hfits
    · cases hm
  unfold readInteger at h
  split at h
  · cases h
    cases hk
  · cases h
    cases hk
  · exact hinRange _ h
  · split at h
    · split at h
      · exact hinRange _ h
      · cases h
    · cases h
  · split at h
    · split at h
      · next hfits =>
        cases h
        cases hk
        exact hfits
      · cases h
    · cases h
  · cases h

theorem fits_of_ofExtensions {side : Option SideRecord} (h : ofExtensions e = .ok side) :
    ∀ r ∈ side, r.Fits := by
  intro r hr
  unfold ofExtensions at h
  split at h
  · cases h
    cases hr
  · split at h
    · cases h
    · obtain ⟨severity, _, h⟩ := bind_eq_ok h
      obtain ⟨recipient, _, h⟩ := bind_eq_ok h
      obtain ⟨attempts, hattempts, h⟩ := bind_eq_ok h
      obtain ⟨freshness, hfreshness, h⟩ := bind_eq_ok h
      cases h
      cases hr
      exact ⟨fits_of_readInteger hattempts, fits_of_readInteger hfreshness⟩

end AlertRegistry.SideRecord
