import AlertRegistry.Proofs.SideRecord.Coercion

/-!
# The normal form of an extension map

What is kept of a value is kept as it is the next time (`Keeps.isOwn`, `IsOwn.keeps`). So to read
the side-record of a map and show it again puts the map into a normal form (`IsNormal`): all four
keys and no others, and under each of them null or a value of the key's own kind. The empty map is
the only one that is accepted and stays outside, since it has no side-record.

`translation_is_normalisation` collects what follows for translating in both directions.
-/

namespace AlertRegistry.SideRecord

open Json (Value)
open Text (FitsInt64)

variable {e : Extensions} {side : Option SideRecord} {key : ExtensionKey} {v w : Value}

/-- The value is null or of the key's own kind, with nothing to coerce. -/
inductive IsOwn (key : ExtensionKey) : Value → Prop
  /-- No value. -/
  | null : IsOwn key .null
  /-- A text where texts belong. -/
  | text (hkey : key.HoldsText) (s : String) : IsOwn key (.text s)
  /-- An integer where integers belong. -/
  | integer {n : ℤ} (hkey : ¬ key.HoldsText) (hn : FitsInt64 n) : IsOwn key (.integer n)

/-- The map has the four keys and no others. -/
def HasAllKeys (e : Extensions) : Prop :=
  ∀ k, k ∈ e.keys ↔ ∃ key : ExtensionKey, key.name = k

/-- The map is one that is shown for a side-record. -/
structure IsNormal (e : Extensions) : Prop where
  /-- Its keys are the four. -/
  keys : HasAllKeys e
  /-- There is nothing to coerce under them. -/
  own : ∀ (key : ExtensionKey) (v : Value), e.get? key.name = some v → IsOwn key v

/-! ## What is kept stays -/

theorem Keeps.isOwn {o : Option Value} (h : Keeps key o w) : IsOwn key w := by
  cases h with
  | absent => exact .null
  | null => exact .null
  | text hkey s => exact .text hkey s
  | integer hkey _ hn => exact .integer hkey hn

theorem IsOwn.keeps (h : IsOwn key v) : Keeps key (some v) v := by
  cases h with
  | null => exact .null
  | text hkey s => exact .text hkey s
  | integer hkey hn => exact .integer hkey (.integer _) hn

theorem hasAllKeys_toExtensions (r : SideRecord) : HasAllKeys (toExtensions (some r)) := by
  intro k
  rw [Extensions.keys, toList_toExtensions]
  simp only [List.map_cons, List.map_nil, List.mem_cons, List.not_mem_nil, or_false]
  constructor
  · rintro (rfl | rfl | rfl | rfl) <;> exact ⟨_, rfl⟩
  · rintro ⟨key, rfl⟩
    cases key <;> simp

theorem HasAllKeys.get?_eq_none {k : String} (h : HasAllKeys e)
    (hk : ∀ key : ExtensionKey, key.name ≠ k) : e.get? k = none := by
  by_contra hsome
  obtain ⟨key, hkey⟩ := (h k).1 (Extensions.get?_ne_none_iff.1 hsome)
  exact hk key hkey

theorem HasAllKeys.ne_empty (h : HasAllKeys e) : e ≠ ∅ := by
  rintro rfl
  cases (h ExtensionKey.severity.name).2 ⟨_, rfl⟩

/-! ## Accepted maps -/

/-- What is under other keys does not matter. -/
theorem ofExtensions_congr (h : ofExtensions e = .ok side) (e' : Extensions)
    (hget : ∀ key : ExtensionKey, e'.get? key.name = e.get? key.name) (hempty : e = ∅ → e' = ∅) :
    ofExtensions e' = .ok side := by
  rcases eq_empty_or_exists_of_ofExtensions h with ⟨rfl, rfl⟩ | ⟨r, rfl, ⟨key, hkey⟩, hkept⟩
  · rw [hempty rfl, ofExtensions_empty]
  · refine (Coercion.record ⟨key, ?_⟩ fun key => ?_).eq
    · rw [← Extensions.get?_ne_none_iff] at hkey ⊢
      rwa [hget]
    · rw [hget]
      exact hkept key

/-- Exactly the maps in normal form are what is shown of their side-records. -/
theorem toExtensions_eq_iff {r : SideRecord}
    (hkept : ∀ key, Keeps key (e.get? key.name) (r.valueAt key)) :
    toExtensions (some r) = e ↔ IsNormal e := by
  constructor
  · rintro rfl
    refine ⟨hasAllKeys_toExtensions r, fun key v hv => ?_⟩
    obtain rfl := Option.some.inj ((get?_toExtensions r key).symm.trans hv)
    exact (hkept key).isOwn
  · intro hnormal
    refine Extensions.ext_get? fun k => ?_
    by_cases hk : ∃ key : ExtensionKey, key.name = k
    · obtain ⟨key, rfl⟩ := hk
      obtain ⟨v, hv⟩ := Option.ne_none_iff_exists'.1
        (Extensions.get?_ne_none_iff.2 ((hnormal.keys _).2 ⟨key, rfl⟩))
      have hown := (hnormal.own key v hv).keeps
      have hkeep := hkept key
      rw [hv] at hkeep
      rw [get?_toExtensions, hv, hkeep.unique hown]
    · rw [not_exists] at hk
      rw [(hasAllKeys_toExtensions r).get?_eq_none hk, hnormal.keys.get?_eq_none hk]

/-- Every side-record is read back from its map. And a map that is accepted becomes normal by being
read and shown: it stays empty if it was, has the four keys otherwise, depends on what was under
these keys alone, and is translated to itself from then on. Maps that do not change are those that
were empty or normal before. -/
theorem translation_is_normalisation :
    (∀ side : Option SideRecord, (∀ r ∈ side, r.Fits) →
      ofExtensions (toExtensions side) = .ok side)
    ∧ ∀ (e : Extensions) (side : Option SideRecord), ofExtensions e = .ok side →
      (toExtensions side = ∅ ↔ e = ∅)
      ∧ (e ≠ ∅ → HasAllKeys (toExtensions side))
      ∧ (∀ e' : Extensions, (∀ key : ExtensionKey, e'.get? key.name = e.get? key.name) →
        (e = ∅ → e' = ∅) → ofExtensions e' = .ok side)
      ∧ (ofExtensions (toExtensions side)).map toExtensions = .ok (toExtensions side)
      ∧ (toExtensions side = e ↔ e = ∅ ∨ IsNormal e) := by
  refine ⟨fun side h => ofExtensions_toExtensions h, fun e side h => ?_⟩
  have hagain : (ofExtensions (toExtensions side)).map toExtensions = .ok (toExtensions side) := by
    rw [ofExtensions_toExtensions (fits_of_ofExtensions h)]
    rfl
  have hcongr := ofExtensions_congr h
  rcases eq_empty_or_exists_of_ofExtensions h with ⟨rfl, rfl⟩ | ⟨r, rfl, ⟨key, hkey⟩, hkept⟩
  · exact ⟨Iff.rfl, fun hne => absurd rfl hne, hcongr, hagain, iff_of_true rfl (.inl rfl)⟩
  · have hne : e ≠ ∅ := by
      rintro rfl
      cases hkey
    refine ⟨iff_of_false (hasAllKeys_toExtensions r).ne_empty hne,
      fun _ => hasAllKeys_toExtensions r, hcongr, hagain, ?_⟩
    rw [or_iff_right hne]
    exact toExtensions_eq_iff hkept

/-- A map with a double and a text where integers belong, an unknown key, and a key missing. -/
def looseMap : Extensions :=
  (((Extensions.empty.insert ExtensionKey.freshness.name (.number 60)).insert
    ExtensionKey.attempts.name (.text " +7 ")).insert
    "owner" (.array [])).insert
    ExtensionKey.severity.name (.text " 7 ")

/-- The map is normalised by being shown, and only then. -/
theorem loose_map_is_normalised :
    ∃ side, ofExtensions looseMap = .ok side ∧ ofExtensions (toExtensions side) = .ok side
      ∧ toExtensions side ≠ looseMap ∧ IsNormal (toExtensions side) := by
  let r : SideRecord := { severity := some " 7 ", attempts := some 7, freshness := some 60 }
  have hside : ofExtensions looseMap = .ok (some r) := by
    with_unfolding_all rfl
  have hfits : ∀ r' ∈ some r, r'.Fits := by
    rintro r' ⟨⟩
    exact ⟨by rintro n ⟨⟩; decide, by rintro n ⟨⟩; decide⟩
  obtain ⟨hback, haccepted⟩ := translation_is_normalisation
  obtain ⟨hempty, -, -, -, hloose⟩ := haccepted looseMap _ hside
  obtain ⟨-, -, -, -, hshown⟩ := haccepted (toExtensions (some r)) _ (hback _ hfits)
  have hne : looseMap ≠ ∅ := (hasAllKeys_toExtensions r).ne_empty ∘ hempty.2
  refine ⟨_, hside, hback _ hfits, fun heq => ?_,
    (hshown.1 rfl).resolve_left (hasAllKeys_toExtensions r).ne_empty⟩
  -- the map has a key that no normal map has
  obtain ⟨key, hkey⟩ := (((hloose.1 heq).resolve_left hne).keys "owner").1 (by decide +kernel)
  cases key <;> exact absurd hkey (by decide)

end AlertRegistry.SideRecord
