/-!
# Pieces between separators

`pieces sep l` lists what stands between the separators of a sequence, empty pieces among them. What
was joined by a separator comes apart again (`pieces_intercalate`). `cut sep l` gives what stands
before the first separator and what comes after it.
-/

namespace AlertRegistry.Text

variable {α : Type} [DecidableEq α]

/-- What stands between separators. -/
def pieces (sep : α) : List α → List (List α)
  | [] => [[]]
  | a :: l =>
    if a = sep then [] :: pieces sep l
    else
      match pieces sep l with
      | [] => [[a]]
      | p :: ps => (a :: p) :: ps

theorem pieces_of_notMem {sep : α} {l : List α} (h : sep ∉ l) : pieces sep l = [l] := by
  induction l with
  | nil => rfl
  | cons a l ih =>
    rw [List.mem_cons, not_or] at h
    rw [pieces, if_neg (Ne.symm h.1), ih h.2]

theorem pieces_append {sep : α} {l : List α} (h : sep ∉ l) (rest : List α) :
    pieces sep (l ++ sep :: rest) = l :: pieces sep rest := by
  induction l with
  | nil => exact if_pos rfl
  | cons a l ih =>
    rw [List.mem_cons, not_or] at h
    rw [List.cons_append, pieces, if_neg (Ne.symm h.1), ih h.2]

/-- What is joined by a separator that does not occur in it comes apart again. -/
theorem pieces_intercalate {sep : α} {ls : List (List α)} (hne : ls ≠ [])
    (h : ∀ l ∈ ls, sep ∉ l) : pieces sep ([sep].intercalate ls) = ls := by
  induction ls with
  | nil => exact absurd rfl hne
  | cons l ls ih =>
    rw [List.forall_mem_cons] at h
    cases ls with
    | nil => rw [List.intercalate_singleton, pieces_of_notMem h.1]
    | cons m ls =>
      rw [List.intercalate_cons_cons, List.append_assoc, List.singleton_append,
        pieces_append h.1, ih (List.cons_ne_nil m ls) h.2]

/-- What stands before the first separator, and what comes after it. -/
def cut (sep : α) (l : List α) : List α × List α :=
  (l.takeWhile (· ≠ sep), (l.dropWhile (· ≠ sep)).drop 1)

end AlertRegistry.Text
