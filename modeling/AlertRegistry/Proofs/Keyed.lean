import Mathlib.Data.List.Forall2
import Mathlib.Data.List.Nodup

/-!
# Lists with keys

A list whose elements have keys stands for a map that remembers in which order its keys were first
used. `change` changes the elements under a key where they are, and `put` puts an element in the
place of the one with its key, or else at the end.
-/

namespace AlertRegistry.Keyed

variable {α β κ : Type} [DecidableEq κ] {key : α → κ} {k : κ} {f : α → α} {l : List α}

/-- The list with the elements under a key changed. -/
def change (key : α → κ) (k : κ) (f : α → α) (l : List α) : List α :=
  l.map fun a => if key a = k then f a else a

/-- The list with an element put under its key. -/
def put (key : α → κ) (a : α) (l : List α) : List α :=
  if key a ∈ l.map key then change key (key a) (fun _ => a) l else l ++ [a]

/-! ## Changing -/

theorem mem_change {b : α} (h : b ∈ change key k f l) :
    ∃ a ∈ l, b = if key a = k then f a else a := by
  obtain ⟨a, ha, hb⟩ := List.mem_map.1 h
  exact ⟨a, ha, hb.symm⟩

/-- What holds of the changed elements and of the others holds of all. -/
theorem forall_mem_change {P : α → Prop} (hself : ∀ a ∈ l, key a = k → P (f a))
    (hother : ∀ a ∈ l, key a ≠ k → P a) : ∀ b ∈ change key k f l, P b := by
  intro b hb
  obtain ⟨a, ha, rfl⟩ := mem_change hb
  by_cases hk : key a = k
  · rw [if_pos hk]
    exact hself a ha hk
  · rw [if_neg hk]
    exact hother a ha hk

theorem change_congr {g : α → α} (h : ∀ a ∈ l, key a = k → f a = g a) :
    change key k f l = change key k g l := by
  apply List.map_congr_left
  intro a ha
  split
  · next hk => exact h a ha hk
  · rfl

/-- Elements that keep their key leave the keys of the list as they are. -/
theorem map_key_change (hf : ∀ a, key a = k → key (f a) = k) :
    (change key k f l).map key = l.map key := by
  unfold change
  rw [List.map_map]
  apply List.map_congr_left
  intro a _
  show key (if key a = k then f a else a) = key a
  split
  · next hk => rw [hf a hk, hk]
  · rfl

theorem change_change {g : α → α} (hf : ∀ a, key a = k → key (f a) = k) :
    change key k g (change key k f l) = change key k (fun a => g (f a)) l := by
  unfold change
  rw [List.map_map]
  apply List.map_congr_left
  intro a _
  show (if key (if key a = k then f a else a) = k then g (if key a = k then f a else a)
    else if key a = k then f a else a) = _
  by_cases hk : key a = k
  · rw [if_pos hk, if_pos (hf a hk), if_pos hk]
  · rw [if_neg hk, if_neg hk, if_neg hk]

/-- Nothing changes under a key that is not used. -/
theorem change_eq_self (h : k ∉ l.map key) : change key k f l = l := by
  unfold change
  conv_rhs => rw [← List.map_id l]
  apply List.map_congr_left
  intro a ha
  exact if_neg fun hk => h (List.mem_map.2 ⟨a, ha, hk⟩)

theorem find?_change_self (hf : ∀ a, key a = k → key (f a) = k) :
    (change key k f l).find? (fun a => key a = k) = (l.find? fun a => key a = k).map f := by
  induction l with
  | nil => rfl
  | cons a l ih =>
    by_cases h : key a = k
    · have h' : key (f a) = k := hf a h
      simp [change, h, h']
    · simpa [change, h] using ih

theorem find?_change_of_ne (hf : ∀ a, key a = k → key (f a) = k) {k' : κ} (h : k' ≠ k) :
    (change key k f l).find? (fun a => key a = k') = l.find? fun a => key a = k' := by
  induction l with
  | nil => rfl
  | cons a l ih =>
    by_cases ha : key a = k
    · have ha' : key (f a) ≠ k' := by
        rw [hf a ha]
        exact h.symm
      simpa [change, ha, ha', h.symm] using ih
    · by_cases hk : key a = k'
      · simp [change, hk, h]
      · simpa [change, ha, hk] using ih

/-! ## Putting -/

theorem mem_map_key_put {a : α} : k ∈ (put key a l).map key ↔ k ∈ l.map key ∨ k = key a := by
  unfold put
  split
  · next h =>
    rw [map_key_change fun _ _ => rfl]
    refine ⟨.inl, ?_⟩
    rintro (hk | rfl)
    · exact hk
    · exact h
  · simp

/-- Putting an element leaves the keys in front. -/
theorem map_key_prefix_put (key : α → κ) (a : α) (l : List α) :
    l.map key <+: (put key a l).map key := by
  unfold put
  split
  · have hkeys : (change key (key a) (fun _ => a) l).map key = l.map key :=
      map_key_change fun _ _ => rfl
    exact ⟨[], (List.append_nil _).trans hkeys.symm⟩
  · rw [List.map_append]
    exact List.prefix_append _ _

theorem nodup_map_key_put {a : α} (h : (l.map key).Nodup) : ((put key a l).map key).Nodup := by
  unfold put
  split
  · rwa [map_key_change fun _ _ => rfl]
  · next hk =>
    rw [List.map_append, List.map_singleton]
    exact h.append (List.nodup_singleton _) (by simpa using hk)

/-- What was put under a key is found there. -/
theorem find?_put_self {a : α} : (put key a l).find? (fun b => key b = key a) = some a := by
  unfold put
  split
  · next h =>
    rw [find?_change_self fun _ _ => rfl]
    obtain ⟨b, hb, hkey⟩ := List.mem_map.1 h
    have hfound : ∃ c, l.find? (fun b => key b = key a) = some c := by
      rw [← Option.isSome_iff_exists, List.find?_isSome]
      exact ⟨b, hb, by simpa using hkey⟩
    obtain ⟨c, hc⟩ := hfound
    rw [hc]
    rfl
  · next h =>
    have hnone : l.find? (fun b => key b = key a) = none := by
      rw [List.find?_eq_none]
      intro b hb hkey
      exact h (List.mem_map.2 ⟨b, hb, of_decide_eq_true hkey⟩)
    rw [List.find?_append, hnone]
    simp

theorem find?_put_of_ne {a : α} (hk : k ≠ key a) :
    (put key a l).find? (fun b => key b = k) = l.find? fun b => key b = k := by
  unfold put
  split
  · exact find?_change_of_ne (fun _ _ => rfl) hk
  · rw [List.find?_append]
    simp [hk.symm]

theorem mem_put {a b : α} (h : b ∈ put key a l) : b = a ∨ b ∈ l := by
  unfold put at h
  split at h
  · obtain ⟨c, hc, rfl⟩ := mem_change h
    split
    · exact .inl rfl
    · exact .inr hc
  · rw [List.mem_append, List.mem_singleton] at h
    exact h.symm

/-- Lists that correspond element by element, with corresponding keys, still do so after
corresponding elements are put. -/
theorem forall₂_put {ι : Type} [DecidableEq ι] {key' : β → ι} (R : α → β → Prop) {g : κ → ι}
    (hg : Function.Injective g) (hkey : ∀ {a b}, R a b → key' b = g (key a)) {a : α} {b : β}
    {l' : List β} (h : List.Forall₂ R l l') (hab : R a b) :
    List.Forall₂ R (put key a l) (put key' b l') := by
  -- the keys are used in both lists or in neither
  have hkeys : l'.map key' = (l.map key).map g := by
    induction h with
    | nil => rfl
    | cons hab' _ ih => rw [List.map_cons, List.map_cons, List.map_cons, hkey hab', ih]
  have hmem : key' b ∈ l'.map key' ↔ key a ∈ l.map key := by
    rw [hkeys, hkey hab, List.mem_map_of_injective hg]
  unfold put
  by_cases hk : key a ∈ l.map key
  · rw [if_pos hk, if_pos (hmem.2 hk)]
    unfold change
    rw [List.forall₂_map_left_iff, List.forall₂_map_right_iff]
    apply h.imp
    intro a' b' hab'
    rw [hkey hab, hkey hab']
    by_cases heq : key a' = key a
    · rwa [if_pos heq, if_pos (congrArg g heq)]
    · rwa [if_neg heq, if_neg fun hgeq => heq (hg hgeq)]
  · rw [if_neg hk, if_neg fun hk' => hk (hmem.1 hk')]
    exact List.rel_append h (.cons hab .nil)

/-! ## Removing -/

/-- The list without the elements under a key. -/
def remove (key : α → κ) (k : κ) (l : List α) : List α :=
  l.filter fun a => key a ≠ k

theorem mem_map_key_remove {j : κ} : j ∈ (remove key k l).map key ↔ j ∈ l.map key ∧ j ≠ k := by
  simp only [remove, List.mem_map, List.mem_filter, decide_eq_true_eq]
  constructor
  · rintro ⟨a, ⟨ha, hne⟩, rfl⟩
    exact ⟨⟨a, ha, rfl⟩, hne⟩
  · rintro ⟨⟨a, ha, rfl⟩, hne⟩
    exact ⟨a, ⟨ha, hne⟩, rfl⟩

theorem find?_remove_self : (remove key k l).find? (fun a => key a = k) = none := by
  simp [remove]

theorem find?_remove_of_ne {j : κ} (h : j ≠ k) :
    (remove key k l).find? (fun a => key a = j) = l.find? fun a => key a = j := by
  unfold remove
  rw [List.find?_filter]
  congr 1
  funext a
  by_cases ha : key a = j
  · simp [ha, h]
  · simp [ha]

/-! ## Distinct keys -/

/-- Of distinct keys each is found once. -/
theorem countP_eq_one (hnd : (l.map key).Nodup) (hk : k ∈ l.map key) :
    l.countP (fun a => key a = k) = 1 := by
  have hcount := List.count_eq_one_of_mem hnd hk
  rw [List.count_eq_countP, List.countP_map] at hcount
  rw [← hcount]
  apply List.countP_congr
  intro a _
  simp

/-- Of distinct keys the one that is looked for leads to its element. -/
theorem find?_eq_some_of_mem (hnd : (l.map key).Nodup) {a : α} (ha : a ∈ l) :
    l.find? (fun b => key b = key a) = some a := by
  induction l with
  | nil => cases ha
  | cons b l ih =>
    rw [List.map_cons, List.nodup_cons] at hnd
    rcases List.mem_cons.1 ha with rfl | ha
    · simp
    · have hne : key b ≠ key a := by
        intro h
        exact hnd.1 (h ▸ List.mem_map_of_mem ha)
      rw [List.find?_cons_of_neg (by simpa using hne)]
      exact ih hnd.2 ha

/-- Of distinct keys the one that is looked for leads to one element, or to none. -/
theorem filter_eq_find? (hnd : (l.map key).Nodup) (k : κ) :
    l.filter (fun a => key a = k) = (l.find? fun a => key a = k).toList := by
  induction l with
  | nil => rfl
  | cons b l ih =>
    rw [List.map_cons, List.nodup_cons] at hnd
    by_cases hb : key b = k
    · have hnone : l.filter (fun a => key a = k) = [] := by
        rw [List.filter_eq_nil_iff]
        intro a ha hak
        exact hnd.1 (hb.trans (of_decide_eq_true hak).symm ▸ List.mem_map_of_mem ha)
      rw [List.filter_cons_of_pos (by simpa using hb), List.find?_cons_of_pos (by simpa using hb),
        hnone]
      rfl
    · rw [List.filter_cons_of_neg (by simpa using hb), List.find?_cons_of_neg (by simpa using hb)]
      exact ih hnd.2

end AlertRegistry.Keyed
