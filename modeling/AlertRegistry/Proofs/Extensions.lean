import AlertRegistry.Proofs.Json.Value

/-!
# The laws of extension maps

A map is known by what is under each key (`Extensions.ext_get?`). A value put under a key is found
there and nothing else changes (`get?_insert_self`, `get?_insert_of_ne`), and a map is made of its
members (`ofList_toList`). From a text a key gets the value of its last member
(`get?_of_ofString?`).
-/

namespace AlertRegistry

open Json (Value Tree Piece insertMember)

/-! ## Members under their keys -/

namespace Json

section

variable {α : Type} {key k : String} {a : α} {l l' : List (String × α)}

theorem lookup_insertMember_self : (insertMember key a l).lookup key = some a := by
  fun_induction insertMember key a l <;> grind [List.lookup]

theorem lookup_insertMember_of_ne (h : k ≠ key) : (insertMember key a l).lookup k = l.lookup k := by
  fun_induction insertMember key a l <;> grind [List.lookup]

theorem lookup_ne_none_iff : l.lookup k ≠ none ↔ k ∈ l.map Prod.fst := by
  induction l with
  | nil => simp
  | cons m l ih =>
    rw [List.lookup_cons, List.map_cons, List.mem_cons, ← ih]
    by_cases hk : k = m.1
    · simp [hk]
    · rw [beq_false_of_ne hk, or_iff_right hk]

/-- Members with distinct keys are known by these keys and what is found under them. -/
theorem eq_of_lookup_eq (hnd : (l.map Prod.fst).Nodup) (hkeys : l.map Prod.fst = l'.map Prod.fst)
    (h : ∀ k ∈ l.map Prod.fst, l.lookup k = l'.lookup k) : l = l' := by
  induction l generalizing l' with
  | nil =>
    rw [List.map_nil] at hkeys
    exact (List.map_eq_nil_iff.1 hkeys.symm).symm
  | cons m l ih =>
    obtain ⟨m', l', rfl⟩ : ∃ m' r, l' = m' :: r :=
      List.exists_cons_of_ne_nil (by rintro rfl; cases hkeys)
    obtain ⟨k, v⟩ := m
    obtain ⟨k', v'⟩ := m'
    simp only [List.map_cons, List.cons.injEq, List.nodup_cons] at hkeys hnd
    obtain ⟨rfl, hkeys⟩ := hkeys
    have hhead : v = v' := by
      simpa using h k List.mem_cons_self
    rw [hhead, ih hnd.2 hkeys fun j hj => ?_]
    have hne : j ≠ k := by
      rintro rfl
      exact hnd.1 hj
    have htail := h j (List.mem_cons_of_mem k hj)
    rwa [List.lookup_cons, List.lookup_cons, beq_false_of_ne hne] at htail

end

end Json

namespace Extensions

variable {e e' : Extensions} {key k : String} {v : Value}

theorem eq_empty_iff : e = ∅ ↔ e.toList = [] :=
  Extensions.ext_iff

theorem get?_ne_none_iff : e.get? k ≠ none ↔ k ∈ e.keys :=
  Json.lookup_ne_none_iff

theorem get?_insert_self : (e.insert key v).get? key = some v :=
  Json.lookup_insertMember_self

theorem get?_insert_of_ne (h : k ≠ key) : (e.insert key v).get? k = e.get? k :=
  Json.lookup_insertMember_of_ne h

/-- Two maps are the same if the same is under each key. -/
theorem ext_get? (h : ∀ k, e.get? k = e'.get? k) : e = e' := by
  have hmem (k : String) : k ∈ e.keys ↔ k ∈ e'.keys := by
    rw [← get?_ne_none_iff, ← get?_ne_none_iff, h]
  have hkeys : e.keys = e'.keys := e.sorted.eq_of_mem_iff e'.sorted hmem
  exact Extensions.ext
    (Json.eq_of_lookup_eq (e.sorted.imp fun hlt => hlt.ne) hkeys fun k _ => h k)

/-- Members with greater and greater keys are put at the end one after the other. -/
theorem foldl_insert {e : Extensions} {l : List (String × Value)}
    (h : ((e.toList ++ l).map Prod.fst).Pairwise (· < ·)) :
    (l.foldl (fun e m => e.insert m.1 m.2) e).toList = e.toList ++ l := by
  induction l generalizing e with
  | nil => rw [List.foldl_nil, List.append_nil]
  | cons m l ih =>
    have hinsert : (e.insert m.1 m.2).toList = e.toList ++ [m] := by
      refine Json.insertMember_of_gt fun m' hm' => ?_
      rw [List.map_append, List.pairwise_append] at h
      exact h.2.2 _ (List.mem_map_of_mem hm') _ (List.mem_map_of_mem List.mem_cons_self)
    rw [List.foldl_cons, ih, hinsert, List.append_assoc]
    · rfl
    · rwa [hinsert, List.append_assoc]

/-- Members in the order of their keys are those of their map. -/
theorem toList_ofList {l : List (String × Value)} (h : (l.map Prod.fst).Pairwise (· < ·)) :
    (ofList l).toList = l :=
  foldl_insert (e := ∅) h

/-- A map is made of its members. -/
theorem ofList_toList (e : Extensions) : ofList e.toList = e :=
  Extensions.ext (toList_ofList e.sorted)

end Extensions

/-! ## Members of a text -/

namespace Json.Tree

variable {d : ℕ} {key : String} {v : Tree}

/-- The tree is an object, and its last member with the key has the tree `v`. -/
def Gives (t : Tree) (key : String) (v : Tree) : Prop :=
  ∃ before k after, t = .object (before ++ (k, v) :: after) ∧ Piece.join k = some key.toList
    ∧ ∀ m ∈ after, Piece.join m.1 ≠ some key.toList

/-- Each key that is read is the key of a member. -/
theorem exists_of_lookup_members? {ms : List (List Piece × Tree)} {l : List (String × Value)}
    (h : members? d ms = some l) (hkey : l.lookup key ≠ none) :
    ∃ m ∈ ms, Piece.join m.1 = some key.toList := by
  induction ms generalizing l with
  | nil =>
    obtain rfl := Option.some.inj h
    exact absurd rfl hkey
  | cons m ms ih =>
    obtain ⟨k, t⟩ := m
    simp only [members?, Option.bind_eq_bind, Option.bind_eq_some_iff] at h
    obtain ⟨cs, hcs, w, -, rest, hrest, heq⟩ := h
    obtain rfl := Option.some.inj heq
    by_cases hsame : key = String.ofList cs
    · exact ⟨(k, t), List.mem_cons_self, by rw [hcs, hsame, String.toList_ofList]⟩
    · have hold : rest.lookup key ≠ none := by
        split at hkey
        · exact hkey
        · rwa [lookup_insertMember_of_ne hsame] at hkey
      obtain ⟨m, hm, hjoin⟩ := ih hrest hold
      exact ⟨m, List.mem_cons_of_mem _ hm, hjoin⟩

/-- Under a key there is the value of its last member, whatever stands before. -/
theorem lookup_members? {before after : List (List Piece × Tree)} {k : List Piece}
    {l : List (String × Value)} (hkey : Piece.join k = some key.toList)
    (hafter : ∀ m ∈ after, Piece.join m.1 ≠ some key.toList)
    (h : members? d (before ++ (k, v) :: after) = some l) :
    ∃ w, v.value? d = some w ∧ l.lookup key = some w := by
  induction before generalizing l with
  | nil =>
    simp only [List.nil_append, members?, Option.bind_eq_bind, Option.bind_eq_some_iff] at h
    obtain ⟨cs, hcs, w, hw, rest, hrest, heq⟩ := h
    obtain rfl := Option.some.inj heq
    obtain rfl := Option.some.inj (hkey.symm.trans hcs)
    have hnew : (rest.any fun m => m.1 = String.ofList key.toList) = false := by
      rw [String.ofList_toList, Bool.eq_false_iff]
      intro hany
      obtain ⟨m, hm, hmkey⟩ := List.any_eq_true.1 hany
      have hmem : key ∈ rest.map Prod.fst := of_decide_eq_true hmkey ▸ List.mem_map_of_mem hm
      obtain ⟨m', hm', hjoin⟩ := exists_of_lookup_members? hrest (lookup_ne_none_iff.2 hmem)
      exact hafter m' hm' hjoin
    refine ⟨w, hw, ?_⟩
    rw [hnew, String.ofList_toList]
    exact lookup_insertMember_self
  | cons m before ih =>
    obtain ⟨k', t⟩ := m
    simp only [List.cons_append, members?, Option.bind_eq_bind, Option.bind_eq_some_iff] at h
    obtain ⟨cs, -, u, -, rest, hrest, heq⟩ := h
    obtain rfl := Option.some.inj heq
    obtain ⟨w, hw, hlookup⟩ := ih hrest
    refine ⟨w, hw, ?_⟩
    split
    · exact hlookup
    · next hnew =>
      -- the earlier member has another key, or it would have been dropped
      rw [lookup_insertMember_of_ne, hlookup]
      rintro rfl
      refine hnew (List.any_eq_true.2 ?_)
      have hmem := lookup_ne_none_iff.1 (hlookup ▸ Option.some_ne_none w)
      obtain ⟨m, hm, hmkey⟩ := List.mem_map.1 hmem
      exact ⟨m, hm, decide_eq_true hmkey⟩

end Json.Tree

/-- The map of a text has under a key the value of the last member with the key. -/
theorem Extensions.get?_of_ofString? {s key : String} {t v : Tree} {e : Extensions}
    (hs : Tree.ofString? s = some t) (ht : t.Gives key v) (he : ofString? s = some e) :
    ∃ d w, v.value? d = some w ∧ e.get? key = some w := by
  obtain ⟨before, k, after, rfl, hkey, hafter⟩ := ht
  simp only [ofString?, hs, Option.bind_eq_bind, Option.bind_some, Option.bind_eq_some_iff] at he
  obtain ⟨l, hl, heq⟩ := he
  obtain rfl := Option.some.inj heq
  obtain ⟨w, hw, hlookup⟩ := Tree.lookup_members? hkey hafter hl
  refine ⟨_, w, hw, ?_⟩
  rw [get?, toList_ofList (Tree.wellFormed_of_members? hl).1]
  exact hlookup

end AlertRegistry
