import AlertRegistry.Proofs.Cell
import AlertRegistry.Proofs.Table

/-!
# Tables with versions

Alerts and expressions are kept in tables of one sort (`Versioned`): a tuple has a key, a version
and two stamps, and a write is guarded by the version that the writer carries. What a writer carries
is a `Sheet`; it fits a table (`Table.Fits`) if its version is the stored one, or 0 where nothing is
stored under its key.

On a table that meets its conditions (`Table.Conforms`) the two statements of a write do the same
thing: a sheet that fits is written (`Table.write`), as `insert_of_fits` and `update_of_fits` say,
and one that does not changes nothing (`insert_of_not_fits`, `update_of_not_fits`). None of this
depends on what is in the cells.
-/

namespace AlertRegistry

open Table (keyOf keys accept)

/-- A table whose tuples carry a version, which is an integer of at least 1, and stamps. -/
class Versioned (γ : Type) [Layout γ] where
  /-- The column of the version. -/
  version : γ
  /-- The column of the first stamp. -/
  createdAt : γ
  isStamp_createdAt {t : Tuple γ} : accept t = .ok t → (t createdAt).IsStamp
  one_le_version {t : Tuple γ} {n : Int} : accept t = .ok t → t version = .integer n → 1 ≤ n

/-- What a writer carries: a key, a version, and how the tuple looks in any version and with any
stamps. -/
structure Sheet (γ : Type) [Layout γ] [Versioned γ] where
  /-- The key. -/
  key : String
  /-- The version that the writer has read, 0 if there was none. -/
  version : Int
  /-- The tuple with a version and two stamps. -/
  tuple : Cell → Cell → Cell → Tuple γ
  keyOf_tuple (v c u : Cell) : keyOf (tuple v c u) = .text key
  version_tuple (v c u : Cell) : tuple v c u (Versioned.version : γ) = v
  accept_tuple {v c u : Cell} : v.IsStamp → c.IsStamp → u.IsStamp →
    v.permitsGe (.integer 1) = true → u.permitsGe c = true →
    accept (tuple v c u) = .ok (tuple v c u)
  isNaN_tuple {v c u : Cell} : v.isNaN = false → c.isNaN = false → u.isNaN = false →
    ∀ column, (tuple v c u column).isNaN = false

namespace Table

variable {γ : Type} [Layout γ]

/-- The table meets its conditions: nothing is rejected, the tuples are admitted as they are, no
cell is a double that is not a number, and no two tuples have one key. -/
structure Conforms (T : Table γ) : Prop where
  /-- Nothing is rejected. -/
  permissive : T.Permissive
  /-- The tuples are admitted as they are. -/
  accepted : ∀ t ∈ T.tuples, accept t = .ok t
  /-- Doubles are numbers. -/
  isNaN : ∀ t ∈ T.tuples, ∀ c, (t c).isNaN = false
  /-- Keys are distinct. -/
  nodup : (keys T.tuples).Nodup

variable [Versioned γ]

/-- The version under a key. -/
def versionAt (T : Table γ) (key : String) : Option Cell :=
  (T.find? (.text key)).map (· Versioned.version)

/-- The version that the sheet carries is the one under its key, or 0 if there is none. -/
def Fits (T : Table γ) (w : Sheet γ) : Prop :=
  T.versionAt w.key = if w.version = 0 then none else some (.integer w.version)

/-- The tuple of a sheet that is written over `t` at the time `now`. -/
def overwritten (w : Sheet γ) (now : Int) (t : Tuple γ) : Tuple γ :=
  w.tuple (.integer (w.version + 1)) (t Versioned.createdAt)
    (Cell.later (t Versioned.createdAt) (.integer now))

/-- The table after a sheet that fits is written at the time `now`: in version 0 it is the last
tuple, in any other version it takes the place of the tuple under its key, whose version grows by
one, whose first stamp stays, and whose second stamp does not go back. -/
def write (T : Table γ) (now : Int) (w : Sheet γ) : Table γ :=
  { T with
    tuples :=
      if w.version = 0 then
        T.tuples ++ [w.tuple (.integer 1) (.integer now) (.integer now)]
      else Keyed.change keyOf (.text w.key) (overwritten w now) T.tuples }

variable {T : Table γ} {w : Sheet γ}

theorem keyOf_overwritten (w : Sheet γ) (now : Int) (t : Tuple γ) :
    keyOf (overwritten w now t) = .text w.key :=
  w.keyOf_tuple ..

/-! ## The version under a key -/

theorem versionAt_eq_none_iff {key : String} :
    T.versionAt key = none ↔ Cell.text key ∉ keys T.tuples := by
  unfold versionAt
  rw [Option.map_eq_none_iff, find?_eq_none_iff]

theorem versionAt_eq_some_iff (h : T.Conforms) {key : String} {c : Cell} :
    T.versionAt key = some c
      ↔ ∃ t ∈ T.tuples, keyOf t = .text key ∧ t Versioned.version = c := by
  unfold versionAt
  rw [Option.map_eq_some_iff]
  constructor
  · rintro ⟨t, ht, hc⟩
    obtain ⟨hmem, hkey⟩ := (find?_eq_some_iff h.nodup).1 ht
    exact ⟨t, hmem, hkey, hc⟩
  · rintro ⟨t, hmem, hkey, hc⟩
    exact ⟨t, (find?_eq_some_iff h.nodup).2 ⟨hmem, hkey⟩, hc⟩

theorem fits_new_iff (hv : w.version = 0) : T.Fits w ↔ Cell.text w.key ∉ keys T.tuples := by
  unfold Fits
  rw [if_pos hv, versionAt_eq_none_iff]

theorem fits_old_iff (h : T.Conforms) (hv : w.version ≠ 0) :
    T.Fits w ↔ ∃ t ∈ T.tuples, keyOf t = .text w.key
      ∧ t Versioned.version = .integer w.version := by
  unfold Fits
  rw [if_neg hv, versionAt_eq_some_iff h]

/-! ## Writing what fits -/

/-- A tuple under the key of a sheet that fits carries its version. -/
theorem version_eq_of_fits (h : T.Conforms) (hv : w.version ≠ 0) (hfits : T.Fits w) {t : Tuple γ}
    (ht : t ∈ T.tuples) (hkey : keyOf t = .text w.key) :
    t Versioned.version = .integer w.version := by
  have hat : T.versionAt w.key = some (t Versioned.version) :=
    (versionAt_eq_some_iff h).2 ⟨t, ht, hkey, rfl⟩
  unfold Fits at hfits
  rw [if_neg hv, hat] at hfits
  exact Option.some.inj hfits

/-- What a sheet that fits is written over, it is written over by an admissible tuple. -/
theorem accept_overwritten (h : T.Conforms) (hv : w.version ≠ 0) (hfits : T.Fits w) (now : Int)
    {t : Tuple γ} (ht : t ∈ T.tuples) (hkey : keyOf t = .text w.key) :
    accept (overwritten w now t) = .ok (overwritten w now t) := by
  have hpos : 1 ≤ w.version :=
    Versioned.one_le_version (h.accepted t ht) (version_eq_of_fits h hv hfits ht hkey)
  have hstamp : (t (Versioned.createdAt : γ)).IsStamp :=
    Versioned.isStamp_createdAt (h.accepted t ht)
  have hversion : (Cell.integer (w.version + 1)).permitsGe (.integer 1) = true :=
    Cell.permitsGe_integer (by omega)
  exact w.accept_tuple (Cell.isStamp_integer _) hstamp (hstamp.later now) hversion
    (Cell.permitsGe_later (h.isNaN t ht _) now)

theorem accept_inserted (w : Sheet γ) (now : Int) :
    accept (w.tuple (.integer 1) (.integer now) (.integer now))
      = .ok (w.tuple (.integer 1) (.integer now) (.integer now)) :=
  w.accept_tuple (Cell.isStamp_integer 1) (Cell.isStamp_integer now) (Cell.isStamp_integer now) rfl
    (Cell.permitsGe_integer (Int.le_refl now))

/-- A table still meets its conditions after a sheet that fits is written. -/
theorem Conforms.write (h : T.Conforms) (hfits : T.Fits w) (now : Int) :
    (T.write now w).Conforms := by
  by_cases hv : w.version = 0
  · have hnew := (fits_new_iff hv).1 hfits
    unfold Table.write
    rw [if_pos hv]
    refine ⟨h.permissive, ?_, ?_, ?_⟩
    · exact List.forall_mem_append.2 ⟨h.accepted, by simpa using accept_inserted w now⟩
    · refine List.forall_mem_append.2 ⟨h.isNaN, ?_⟩
      rw [List.forall_mem_singleton]
      exact w.isNaN_tuple rfl rfl rfl
    · rw [keys_append]
      refine h.nodup.append (List.nodup_singleton _) ?_
      simpa [keys, w.keyOf_tuple] using hnew
  · unfold Table.write
    rw [if_neg hv]
    refine ⟨h.permissive, ?_, ?_, ?_⟩
    · exact Keyed.forall_mem_change
        (fun t ht hkey => accept_overwritten h hv hfits now ht hkey) fun t ht _ => h.accepted t ht
    · refine Keyed.forall_mem_change (fun t ht _ => ?_) fun t ht _ => h.isNaN t ht
      have hc := h.isNaN t ht Versioned.createdAt
      refine w.isNaN_tuple rfl hc ?_
      unfold Cell.later
      split
      · exact hc
      · rfl
    · show ((Keyed.change keyOf _ _ T.tuples).map keyOf).Nodup
      rw [Keyed.map_key_change fun t _ => keyOf_overwritten w now t]
      exact h.nodup

/-- A sheet in version 0 is inserted where it fits. -/
theorem insert_of_fits (h : T.Conforms) (hv : w.version = 0) (hfits : T.Fits w) (now : Int) :
    T.insert (w.tuple (.integer 1) (.integer now) (.integer now)) = .ok (T.write now w) := by
  have hnew : keyOf (w.tuple (.integer 1) (.integer now) (.integer now)) ∉ keys T.tuples := by
    rw [w.keyOf_tuple]
    exact (fits_new_iff hv).1 hfits
  rw [insert_eq_ok h.permissive (accept_inserted w now) hnew]
  unfold Table.write
  rw [if_pos hv]

/-- A sheet in version 0 is refused where it does not fit. -/
theorem insert_of_not_fits (h : T.Conforms) (hv : w.version = 0) (hfits : ¬ T.Fits w) (now : Int) :
    T.insert (w.tuple (.integer 1) (.integer now) (.integer now)) = .error (duplicateKey γ) := by
  refine insert_eq_error h.permissive (accept_inserted w now) ?_
  rw [w.keyOf_tuple]
  rw [fits_new_iff hv] at hfits
  exact not_not.1 hfits

section

variable (w)

/-- The tuples that have the key and the version of a sheet. -/
def isExpected (t : Tuple γ) : Bool :=
  keyOf t = .text w.key && t Versioned.version = .integer w.version

variable {w}

theorem isExpected_iff {t : Tuple γ} :
    isExpected w t = true
      ↔ keyOf t = .text w.key ∧ t Versioned.version = .integer w.version := by
  unfold isExpected
  rw [Bool.and_eq_true, decide_eq_true_eq, decide_eq_true_eq]

/-- A sheet in another version is written over the tuple under its key where it fits. -/
theorem update_of_fits (h : T.Conforms) (hv : w.version ≠ 0) (hfits : T.Fits w)
    (hmax : w.version < Text.maxInt64) (now : Int) :
    T.update (isExpected w) (fun t => w.tuple (.next w.version) (t Versioned.createdAt)
        (Cell.later (t Versioned.createdAt) (.integer now))) = .ok (T.write now w)
      ∧ T.count (isExpected w) = 1 := by
  obtain ⟨t₀, hmem₀, hkey₀, _⟩ := (fits_old_iff h hv).1 hfits
  have hupdate := update_key (p := isExpected w) (g := overwritten w now) (k := .text w.key)
    h.permissive h.nodup (hkey₀ ▸ List.mem_map_of_mem hmem₀)
    (by
      intro t ht
      rw [isExpected_iff]
      exact ⟨And.left, fun hkey => ⟨hkey, version_eq_of_fits h hv hfits ht hkey⟩⟩)
    fun t ht hkey => ⟨accept_overwritten h hv hfits now ht hkey, keyOf_overwritten w now t⟩
  unfold Table.write
  rw [if_neg hv, Cell.next_eq hmax]
  exact hupdate

/-- A sheet in another version selects nothing where it does not fit. -/
theorem update_of_not_fits (h : T.Conforms) (hv : w.version ≠ 0) (hfits : ¬ T.Fits w)
    (f : Tuple γ → Tuple γ) :
    T.update (isExpected w) f = .ok T ∧ T.count (isExpected w) = 0 := by
  refine update_eq_self h.permissive ?_ h.nodup
  intro t ht
  rw [← Bool.not_eq_true, isExpected_iff]
  rintro ⟨hkey, hversion⟩
  exact hfits ((fits_old_iff h hv).2 ⟨t, ht, hkey, hversion⟩)

end

/-! ## What is under the keys afterwards -/

/-- The key of a sheet that was written is in use. -/
theorem key_mem_keys_write (h : T.Conforms) (hfits : T.Fits w) (now : Int) :
    Cell.text w.key ∈ keys (T.write now w).tuples := by
  unfold Table.write
  by_cases hv : w.version = 0
  · rw [if_pos hv, keys_append]
    exact List.mem_append_right _ (List.mem_singleton.2 (w.keyOf_tuple ..).symm)
  · obtain ⟨t, ht, hkey, _⟩ := (fits_old_iff h hv).1 hfits
    rw [if_neg hv]
    show _ ∈ (Keyed.change keyOf _ _ T.tuples).map keyOf
    rw [Keyed.map_key_change fun t _ => keyOf_overwritten w now t]
    exact hkey ▸ List.mem_map_of_mem ht

theorem keys_subset_keys_write (T : Table γ) (now : Int) (w : Sheet γ) :
    keys T.tuples ⊆ keys (T.write now w).tuples := by
  unfold Table.write
  by_cases hv : w.version = 0
  · rw [if_pos hv, keys_append]
    exact List.subset_append_left _ _
  · rw [if_neg hv]
    show _ ⊆ (Keyed.change keyOf _ _ T.tuples).map keyOf
    rw [Keyed.map_key_change fun t _ => keyOf_overwritten w now t]
    exact fun _ hk => hk

/-- A sheet that was written makes a version that is one larger than the one it carries. -/
theorem versionAt_write_self (hfits : T.Fits w) (now : Int) :
    (T.write now w).versionAt w.key = some (.integer (w.version + 1)) := by
  unfold versionAt find? Table.write
  by_cases hv : w.version = 0
  · have hnone : T.tuples.find? (fun t => keyOf t = .text w.key) = none :=
      find?_eq_none_iff.2 ((fits_new_iff hv).1 hfits)
    rw [if_pos hv, List.find?_append, hnone]
    simp [w.keyOf_tuple, w.version_tuple, hv]
  · have hversion : ∀ t, overwritten w now t Versioned.version = .integer (w.version + 1) :=
      fun t => w.version_tuple ..
    have hsome : T.versionAt w.key = some (.integer w.version) := by
      unfold Fits at hfits
      rwa [if_neg hv] at hfits
    obtain ⟨t, ht, _⟩ := Option.map_eq_some_iff.1 hsome
    unfold find? at ht
    rw [if_neg hv, Keyed.find?_change_self fun t _ => keyOf_overwritten w now t, ht,
      Option.map_some, Option.map_some, hversion]

/-- The versions under other keys stay. -/
theorem versionAt_write_of_ne (T : Table γ) (now : Int) {key : String} (hne : key ≠ w.key) :
    (T.write now w).versionAt key = T.versionAt key := by
  have hne' : Cell.text key ≠ .text w.key := fun h => hne (Cell.text.inj h)
  unfold versionAt find? Table.write
  by_cases hv : w.version = 0
  · rw [if_pos hv, List.find?_append]
    simp [w.keyOf_tuple, hne.symm]
  · rw [if_neg hv, Keyed.find?_change_of_ne (fun t _ => keyOf_overwritten w now t) hne']

end Table

end AlertRegistry
