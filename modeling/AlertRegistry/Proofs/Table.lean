import AlertRegistry.Database.Layout
import AlertRegistry.Proofs.Keyed

/-!
# Changes of a table that go through

What `insert`, `update`, `put` and `delete` do to a table if nothing is rejected and the tuples meet
their conditions. The keys of the tuples are a list (`keys`), and as long as it has no duplicates,
changing tuples in their places under their keys (`revise`) is all that an update does, and a key
leads to at most one tuple.

If the tuples are those of rows with distinct keys, an update that selects the tuple under a key
changes the row under it (`update_rows`), and one that selects none changes nothing
(`update_eq_self`).
-/

namespace AlertRegistry

/-! ## Cells that versions and stamps go through -/

theorem Cell.next_eq {n : Int} (h : n < Text.maxInt64) : Cell.next n = .integer (n + 1) :=
  if_pos h

theorem Cell.later_integer (m n : Int) :
    Cell.later (.integer m) (.integer n) = .integer (max m n) := by
  show (if decide (n ≤ m) = true then _ else _) = _
  by_cases hle : n ≤ m
  · rw [if_pos (decide_eq_true hle), Int.max_eq_left hle]
  · rw [if_neg (by simpa using hle), Int.max_eq_right (by omega)]

theorem Cell.permitsGe_integer {m n : Int} (h : m ≤ n) :
    (integer n).permitsGe (.integer m) = true :=
  decide_eq_true h

/-- A required column of integers takes the cell as it is. -/
structure Cell.IsStamp (c : Cell) : Prop where
  /-- The column keeps the cell. -/
  kept : Affinity.integer.convert c = c
  /-- The cell is not null. -/
  notNull : c ≠ .null

theorem Cell.isStamp_integer (n : Int) : (integer n).IsStamp :=
  ⟨rfl, Cell.noConfusion⟩

theorem Cell.IsStamp.later {c : Cell} (h : c.IsStamp) (n : Int) :
    (Cell.later c (.integer n)).IsStamp := by
  unfold Cell.later
  split
  · exact h
  · exact isStamp_integer n

theorem passes_versionCheck {γ : Type} {t : Tuple γ} {version : γ} {n : Int}
    (ht : t version = .integer n) : (versionCheck version).passes t = decide (1 ≤ n) := by
  show (t version).permitsGe (.integer 1) = _
  rw [ht]
  rfl

namespace Table

variable {γ : Type}

/-- Nothing is rejected. -/
def Permissive (T : Table γ) : Prop :=
  ∀ change, T.rejection change = none

theorem Permissive.permit {T : Table γ} (h : T.Permissive) (change : Change) :
    T.permit change = .ok () := by
  unfold Table.permit
  rw [h change]

/-! ## Removal -/

theorem delete_eq_ok {T : Table γ} (hp : T.Permissive) (select : Tuple γ → Bool) :
    T.delete select = .ok { T with tuples := T.tuples.filter fun t => !select t } := by
  unfold delete
  rw [hp.permit]
  split <;> rfl

/-! ## Keys -/

variable [Layout γ]

/-- The keys of tuples, in the order of these. -/
def keys (ts : List (Tuple γ)) : List Cell :=
  ts.map keyOf

@[simp] theorem keys_append (ts us : List (Tuple γ)) : keys (ts ++ us) = keys ts ++ keys us :=
  List.map_append

theorem hasKey_iff {key : Cell} {ts : List (Tuple γ)} : hasKey key ts = true ↔ key ∈ keys ts := by
  simp [hasKey, keys]

theorem hasKey_eq_false_iff {key : Cell} {ts : List (Tuple γ)} :
    hasKey key ts = false ↔ key ∉ keys ts := by
  rw [← hasKey_iff, Bool.not_eq_true]

/-! ## Admission -/

/-- A tuple is admitted as it is if the columns keep its cells, none of the required ones is null,
and it passes the checks. -/
theorem accept_eq_ok {t : Tuple γ} (hc : convert t = t)
    (hr : ∀ c, Layout.required c = true → t c ≠ .null)
    (hk : ∀ k ∈ (Layout.checks : List (Check γ)), k.passes t = true) : accept t = .ok t := by
  have hfind : (Layout.columns : List γ).find? (fun c => Layout.required c && t c = .null)
      = none := by
    rw [List.find?_eq_none]
    intro c _ hnull
    simp only [Bool.and_eq_true, decide_eq_true_eq] at hnull
    exact hr c hnull.1 hnull.2
  have hpass : (Layout.checks : List (Check γ)).find? (fun k => !k.passes t) = none := by
    rw [List.find?_eq_none]
    intro k hmem hfail
    rw [hk k hmem] at hfail
    cases hfail
  unfold accept
  simp only [hc, hfind, hpass]

/-- What is admitted has been converted, and meets all conditions. -/
theorem accept_eq_ok_imp {t u : Tuple γ} (h : accept t = .ok u) :
    u = convert t ∧ (∀ c ∈ (Layout.columns : List γ), Layout.required c = true → u c ≠ .null)
      ∧ ∀ k ∈ (Layout.checks : List (Check γ)), k.passes u = true := by
  unfold accept at h
  dsimp only at h
  split at h
  · cases h
  · next hfind =>
    split at h
    · cases h
    · next hpass =>
      cases h
      refine ⟨rfl, ?_, ?_⟩
      · intro c hc hreq hnull
        refine List.find?_eq_none.1 hfind c hc ?_
        rw [hreq, hnull]
        rfl
      · intro k hk
        simpa using List.find?_eq_none.1 hpass k hk

/-- A required column of integers holds a stamp in every tuple that is admitted as it is. -/
theorem isStamp_of_accept {t : Tuple γ} (h : accept t = .ok t) {c : γ}
    (hmem : c ∈ (Layout.columns : List γ)) (hreq : Layout.required c = true)
    (haff : Layout.affinity c = .integer) : (t c).IsStamp := by
  obtain ⟨hconvert, hnull, _⟩ := accept_eq_ok_imp h
  have hkept : t c = (Layout.affinity c).convert (t c) := congrFun hconvert c
  rw [haff] at hkept
  exact ⟨hkept.symm, hnull c hmem hreq⟩

/-- A version that is an integer is at least 1 in every tuple that is admitted as it is. -/
theorem one_le_of_accept {t : Tuple γ} (h : accept t = .ok t) {c : γ}
    (hcheck : versionCheck c ∈ (Layout.checks : List (Check γ))) {n : Int}
    (ht : t c = .integer n) : 1 ≤ n := by
  have hpass := (accept_eq_ok_imp h).2.2 _ hcheck
  rw [passes_versionCheck ht] at hpass
  exact of_decide_eq_true hpass

/-! ## Insertion -/

/-- A new key goes to the end. -/
theorem insert_eq_ok {T : Table γ} {t : Tuple γ} (hp : T.Permissive) (ha : accept t = .ok t)
    (hk : keyOf t ∉ keys T.tuples) : T.insert t = .ok { T with tuples := T.tuples ++ [t] } := by
  unfold Table.insert
  rw [hp.permit, ha]
  simp only [bind, Except.bind, hasKey_eq_false_iff.2 hk]
  rfl

/-- A key that is taken is refused. -/
theorem insert_eq_error {T : Table γ} {t : Tuple γ} (hp : T.Permissive) (ha : accept t = .ok t)
    (hk : keyOf t ∈ keys T.tuples) : T.insert t = .error (duplicateKey γ) := by
  unfold Table.insert
  rw [hp.permit, ha]
  simp only [bind, Except.bind, hasKey_iff.2 hk, if_true]
  rfl

/-! ## Updates -/

/-- The tuples with the selected ones changed in their places. -/
def revise (select : Tuple γ → Bool) (f : Tuple γ → Tuple γ) (ts : List (Tuple γ)) :
    List (Tuple γ) :=
  ts.map fun t => if select t then f t else t

/-- The selected tuples may be changed: they stay admissible and keep their keys. -/
def Revisable (select : Tuple γ → Bool) (f : Tuple γ → Tuple γ) (ts : List (Tuple γ)) : Prop :=
  ∀ t ∈ ts, select t = true → accept (f t) = .ok (f t) ∧ keyOf (f t) = keyOf t

theorem updateFrom_eq_ok {T : Table γ} {select : Tuple γ → Bool} {f : Tuple γ → Tuple γ}
    (hp : T.Permissive) : ∀ {ts before : List (Tuple γ)}, Revisable select f ts →
      (keys (before ++ ts)).Nodup →
      T.updateFrom select f before ts = .ok (before ++ revise select f ts)
  | [], before, _, _ => by simp [updateFrom, revise]
  | t :: ts, before, h, hnd => by
    have htail : Revisable select f ts := fun u hu => h u (List.mem_cons_of_mem t hu)
    unfold updateFrom
    by_cases hs : select t = true
    · obtain ⟨haccept, hkey⟩ := h t List.mem_cons_self hs
      have hnd' : (keys (before ++ [f t] ++ ts)).Nodup := by
        simpa [keys, hkey] using hnd
      -- the changed tuple still has its own key, which no other tuple has
      have hfree : keyOf (f t) ∉ keys before ∧ keyOf (f t) ∉ keys ts := by
        rw [List.append_assoc, List.singleton_append, keys_append] at hnd'
        rw [show keys (f t :: ts) = keyOf (f t) :: keys ts from rfl] at hnd'
        have hmid := List.nodup_middle.1 hnd'
        rw [List.nodup_cons, List.mem_append, not_or] at hmid
        exact hmid.1
      rw [if_pos hs, hp.permit, haccept]
      simp only [bind, Except.bind, hasKey_eq_false_iff.2 hfree.1, hasKey_eq_false_iff.2 hfree.2,
        Bool.or_self]
      show T.updateFrom select f (before ++ [f t]) ts = _
      rw [updateFrom_eq_ok hp htail hnd']
      simp [revise, hs]
    · rw [if_neg hs]
      have hnd' : (keys (before ++ [t] ++ ts)).Nodup := by simpa using hnd
      rw [updateFrom_eq_ok hp htail hnd']
      simp [revise, hs]

/-- An update changes the selected tuples and leaves the others. -/
theorem update_eq_ok {T : Table γ} {select : Tuple γ → Bool} {f : Tuple γ → Tuple γ}
    (hp : T.Permissive) (h : Revisable select f T.tuples) (hnd : (keys T.tuples).Nodup) :
    T.update select f = .ok { T with tuples := revise select f T.tuples } := by
  unfold update
  rw [updateFrom_eq_ok hp h (by simpa using hnd)]
  rfl

/-- An update that selects nothing changes nothing. -/
theorem update_eq_self {T : Table γ} {select : Tuple γ → Bool} {f : Tuple γ → Tuple γ}
    (hp : T.Permissive) (h : ∀ t ∈ T.tuples, select t = false) (hnd : (keys T.tuples).Nodup) :
    T.update select f = .ok T ∧ T.count select = 0 := by
  have hrevise : revise select f T.tuples = T.tuples := by
    unfold revise
    conv_rhs => rw [← List.map_id T.tuples]
    apply List.map_congr_left
    intro t ht
    rw [h t ht]
    rfl
  constructor
  · rw [update_eq_ok hp _ hnd, hrevise]
    intro t ht hs
    rw [h t ht] at hs
    cases hs
  · unfold count
    rw [List.countP_eq_zero]
    intro t ht
    rw [h t ht]
    exact Bool.false_ne_true

/-- An update that selects the tuple under a key changes that tuple. -/
theorem update_key {T : Table γ} {p : Tuple γ → Bool} {g : Tuple γ → Tuple γ} {k : Cell}
    (hp : T.Permissive) (hnd : (keys T.tuples).Nodup) (hk : k ∈ keys T.tuples)
    (hselect : ∀ t ∈ T.tuples, (p t = true ↔ keyOf t = k))
    (hg : ∀ t ∈ T.tuples, keyOf t = k → accept (g t) = .ok (g t) ∧ keyOf (g t) = k) :
    T.update p g = .ok { T with tuples := Keyed.change keyOf k g T.tuples } ∧ T.count p = 1 := by
  have hrevise : revise p g T.tuples = Keyed.change keyOf k g T.tuples := by
    apply List.map_congr_left
    intro t ht
    exact if_congr (hselect t ht) rfl rfl
  constructor
  · rw [update_eq_ok hp _ hnd, hrevise]
    intro t ht hs
    have hkey := (hselect t ht).1 hs
    rw [hkey]
    exact hg t ht hkey
  · unfold count
    rw [← Keyed.countP_eq_one hnd hk]
    apply List.countP_congr
    intro t ht
    rw [decide_eq_true_eq]
    exact hselect t ht

/-- What is put under a key that is taken replaces the tuple there; under any other key it goes to
the end. -/
theorem put_eq_ok {T : Table γ} {t : Tuple γ} (hp : T.Permissive) (ha : accept t = .ok t)
    (hnd : (keys T.tuples).Nodup) :
    T.put t = .ok { T with tuples := Keyed.put keyOf t T.tuples } := by
  unfold put Keyed.put
  rw [hp.permit, ha]
  simp only [bind, Except.bind]
  by_cases hk : keyOf t ∈ T.tuples.map keyOf
  · rw [if_pos (hasKey_iff.2 hk), if_pos hk]
    rw [update_eq_ok hp _ hnd]
    · unfold revise Keyed.change
      simp only [decide_eq_true_eq]
    · intro u _ hu
      exact ⟨ha, (of_decide_eq_true hu).symm⟩
  · rw [if_neg fun h => hk (hasKey_iff.1 h), if_neg hk]
    rfl

/-! ## Looking up -/

theorem find?_eq_none_iff {T : Table γ} {key : Cell} :
    T.find? key = none ↔ key ∉ keys T.tuples := by
  simp [find?, keys]

/-- As keys are distinct, the tuple under a key is the only one with it. -/
theorem find?_eq_some_iff {T : Table γ} (hnd : (keys T.tuples).Nodup) {key : Cell} {t : Tuple γ} :
    T.find? key = some t ↔ t ∈ T.tuples ∧ keyOf t = key := by
  constructor
  · intro h
    exact ⟨List.mem_of_find?_eq_some h, by simpa using List.find?_some h⟩
  · rintro ⟨ht, rfl⟩
    exact Keyed.find?_eq_some_of_mem hnd ht

/-- At most one tuple has a key. -/
theorem count_le_one {T : Table γ} (h : (keys T.tuples).Nodup) (key : Cell)
    {select : Tuple γ → Bool} (hselect : ∀ t, select t = true → keyOf t = key) :
    T.count select ≤ 1 := by
  have hkeys : T.tuples.countP (fun t => keyOf t = key) = (keys T.tuples).count key := by
    unfold keys
    rw [List.count_eq_countP, List.countP_map]
    exact List.countP_congr fun t _ => by simp
  calc T.count select
      ≤ T.tuples.countP (fun t => keyOf t = key) :=
        List.countP_mono_left fun t _ ht => decide_eq_true (hselect t ht)
    _ = (keys T.tuples).count key := hkeys
    _ ≤ 1 := List.nodup_iff_count_le_one.1 h key

/-! ## Rows -/

section

variable {ρ : Type} {stored : ρ → Tuple γ} {key : ρ → String} {rows : List ρ}

theorem keys_stored (hkey : ∀ r, keyOf (stored r) = .text (key r)) :
    keys (rows.map stored) = (rows.map key).map .text := by
  unfold keys
  rw [List.map_map, List.map_map]
  exact List.map_congr_left fun r _ => hkey r

theorem text_mem_keys_stored (hkey : ∀ r, keyOf (stored r) = .text (key r)) {k : String} :
    Cell.text k ∈ keys (rows.map stored) ↔ k ∈ rows.map key := by
  rw [keys_stored hkey, List.mem_map_of_injective fun _ _ => Cell.text.inj]

theorem nodup_keys_stored (hkey : ∀ r, keyOf (stored r) = .text (key r))
    (hnd : (rows.map key).Nodup) : (keys (rows.map stored)).Nodup := by
  rw [keys_stored hkey]
  exact hnd.map fun _ _ => Cell.text.inj

/-- An update that selects the tuple under a key and writes the tuple of another row over it changes
the row under that key. -/
theorem update_rows {T : Table γ} {p : Tuple γ → Bool} {g : Tuple γ → Tuple γ}
    {f : ρ → ρ} {k : String} (hp : T.Permissive) (ht : T.tuples = rows.map stored)
    (hkey : ∀ r, keyOf (stored r) = .text (key r)) (hnd : (rows.map key).Nodup)
    (hk : k ∈ rows.map key) (hselect : ∀ u ∈ rows, (p (stored u) = true ↔ key u = k))
    (hover : ∀ u ∈ rows, key u = k → g (stored u) = stored (f u))
    (haccept : ∀ u ∈ rows, key u = k → accept (stored (f u)) = .ok (stored (f u)))
    (hf : ∀ u, key u = k → key (f u) = k) :
    T.update p g = .ok { T with tuples := (Keyed.change key k f rows).map stored }
      ∧ T.count p = 1 := by
  have hkeyOf : ∀ u, keyOf (stored u) = .text k ↔ key u = k := by
    intro u
    rw [hkey, Cell.text.injEq]
  have hupdate := update_key (p := p) (g := g) (k := .text k) hp (ht ▸ nodup_keys_stored hkey hnd)
    (ht ▸ (text_mem_keys_stored hkey).2 hk)
    (by
      rw [ht, List.forall_mem_map]
      intro u hu
      rw [hkeyOf]
      exact hselect u hu)
    (by
      rw [ht, List.forall_mem_map]
      intro u hu hku
      rw [hkeyOf] at hku
      rw [hover u hu hku, hkeyOf]
      exact ⟨haccept u hu hku, hf u hku⟩)
  have hchange : Keyed.change keyOf (.text k) g T.tuples
      = (Keyed.change key k f rows).map stored := by
    rw [ht]
    unfold Keyed.change
    rw [List.map_map, List.map_map]
    apply List.map_congr_left
    intro u hu
    show (if keyOf (stored u) = .text k then g (stored u) else stored u)
      = stored (if key u = k then f u else u)
    by_cases hku : key u = k
    · rw [if_pos ((hkeyOf u).2 hku), if_pos hku, hover u hu hku]
    · rw [if_neg fun h => hku ((hkeyOf u).1 h), if_neg hku]
  rwa [hchange] at hupdate

end

end Table

end AlertRegistry
