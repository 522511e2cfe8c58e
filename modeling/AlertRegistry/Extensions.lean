import AlertRegistry.Json.Printer

/-!
# Extension maps

An alert carries a map of free attributes: JSON values under text keys. The keys are in increasing
order by code point and each occurs once, which the type keeps; `toList` is the map's view.
-/

namespace AlertRegistry

open Json (Value Tree insertMember)

/-- A map from texts to JSON values. -/
@[ext] structure Extensions where
  /-- The members in the order of their keys. -/
  toList : List (String × Value)
  /-- The keys increase. -/
  sorted : (toList.map Prod.fst).Pairwise (· < ·)

namespace Extensions

/-- The map without members. -/
def empty : Extensions := ⟨[], .nil⟩

instance : EmptyCollection Extensions := ⟨empty⟩

theorem key_mem_insertMember {k key : String} {v : Value} {l : List (String × Value)}
    (h : k ∈ (insertMember key v l).map Prod.fst) : k = key ∨ k ∈ l.map Prod.fst := by
  fun_induction insertMember key v l with
  | case1 =>
    left
    simpa using h
  | case2 k' w l hlt =>
    rw [List.map_cons, List.mem_cons] at h
    exact h
  | case3 w l hlt =>
    right
    exact h
  | case4 k' w l hlt hne ih =>
    rw [List.map_cons, List.mem_cons] at h
    rw [List.map_cons, List.mem_cons]
    rcases h with rfl | h
    · exact .inr (.inl rfl)
    · exact (ih h).imp_right .inr

theorem sorted_insertMember {key : String} {v : Value} {l : List (String × Value)}
    (h : (l.map Prod.fst).Pairwise (· < ·)) :
    ((insertMember key v l).map Prod.fst).Pairwise (· < ·) := by
  fun_induction insertMember key v l with
  | case1 => simp
  | case2 k w l hlt =>
    simp only [List.map_cons, List.pairwise_cons, List.mem_cons] at h ⊢
    grind
  | case3 w l hlt =>
    simp only [List.map_cons, List.pairwise_cons] at h ⊢
    grind
  | case4 k w l hlt hne ih =>
    simp only [List.map_cons, List.pairwise_cons] at h ⊢
    refine ⟨fun x hx => ?_, ih h.2⟩
    rcases key_mem_insertMember hx with rfl | hx
    · grind
    · exact h.1 x hx

/-- The map with a value put under a key. -/
def insert (e : Extensions) (key : String) (v : Value) : Extensions where
  toList := insertMember key v e.toList
  sorted := sorted_insertMember e.sorted

/-- The map of a list of members, the last of those with one key counting. -/
def ofList (l : List (String × Value)) : Extensions :=
  l.foldl (fun e m => e.insert m.1 m.2) ∅

/-- The value under a key. -/
def get? (e : Extensions) (key : String) : Option Value :=
  e.toList.lookup key

/-- The keys in increasing order. -/
def keys (e : Extensions) : List String :=
  e.toList.map Prod.fst

/-- The map of a JSON text, which must be an object. -/
def ofString? (s : String) : Option Extensions := do
  let t ← Tree.ofString? s
  return ofList (← t.object? Json.maxDepth)

/-- The map as a JSON value. -/
def toValue (e : Extensions) : Value :=
  .object e.toList

end Extensions

end AlertRegistry
