/-!
# Runs inside a sequence

`containsRun n l` decides whether the elements of `n` occur in `l` one right after the other; it is
the decision procedure of the infix relation.
-/

namespace AlertRegistry.Text

variable {α : Type} [DecidableEq α]

/-- The elements of the first list occur in the second one right after the other. -/
def containsRun (needle : List α) : List α → Bool
  | [] => needle.isEmpty
  | a :: l => needle.isPrefixOf (a :: l) || containsRun needle l

theorem containsRun_iff {needle l : List α} : containsRun needle l = true ↔ needle <:+: l := by
  induction l with
  | nil => simp [containsRun, List.infix_nil]
  | cons a l ih => simp [containsRun, ih, List.infix_cons_iff]

end AlertRegistry.Text
