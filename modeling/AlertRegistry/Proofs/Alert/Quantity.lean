import AlertRegistry.Alert.Document
import AlertRegistry.Proofs.Json.Written

/-!
# Quantities read back

The document of a quantity with a finite number is read as a quantity with the same unit and the
number that is read back for it (`Quantity.ofString?_document`).
-/

namespace AlertRegistry

open Decimal (Binary)
open Double (Denotes)
open Json (Tree)

namespace Quantity

/-- The tree of the document, with the numeral of the number. -/
def tree (q : Quantity) (n : Decimal.Numeral) : Tree :=
  .record ["value", "unit"]
    (.numeral n :: (q.unit.map fun u => .string (u.toList.map .char)).toList)

/-- The document is the text of its tree. -/
theorem writtenAs_tree {q : Quantity} {b : Binary} (h : Binary.ofFloat? q.value = some b) :
    (q.tree (Json.numberStyle.numeral b)).WrittenAs q.write := by
  have hvalue := Tree.writtenAs_float h
  unfold write tree
  cases q.unit with
  | none => exact Tree.writtenAs_record (.cons hvalue .nil) _
  | some u => exact Tree.writtenAs_record (.cons hvalue (.cons (Tree.writtenAs_text u.toList) .nil)) _

/-- The fields of the tree. -/
theorem fields?_tree (q : Quantity) (n : Decimal.Numeral) :
    (q.tree n).fields? ["value", "unit"]
      = some [some (.numeral n), q.unit.map fun u => .string (u.toList.map .char)] := by
  unfold tree
  rw [Tree.fields?_record (by decide) (by cases q.unit <;> simp)]
  cases q.unit <;> rfl

theorem ofTree?_tree {q : Quantity} {n : Decimal.Numeral} {y : Float}
    (hinteger : n.integer? = none) (hfloat : n.float? = some y) :
    ofTree? (q.tree n) = some { value := y, unit := q.unit } := by
  have hvalue : (Tree.numeral n).float? = some y := by
    unfold Tree.float?
    dsimp only
    rw [hinteger]
    exact hfloat
  unfold ofTree?
  rw [fields?_tree]
  dsimp only [Option.bind_eq_bind, Option.bind_some]
  rw [hvalue]
  dsimp only [Option.bind_some]
  cases q.unit with
  | none => rfl
  | some u =>
    dsimp only [Option.map_some]
    rw [Tree.text?_string]
    rfl

/-- A quantity with a finite number is read back with its unit, and with a finite number of the same
sign. -/
theorem ofString?_document {q : Quantity} {b : Binary} (h : Binary.ofFloat? q.value = some b) :
    ∃ y, ofString? q.document = some { value := y, unit := q.unit }
      ∧ Denotes y b.negative (Json.readBack b) := by
  obtain ⟨hc, he⟩ := Double.isCanonical_of_ofFloat? h
  obtain ⟨y, hy, hden⟩ := Json.float?_numeral hc he
  refine ⟨y, ?_, hden⟩
  unfold ofString? document
  rw [(writtenAs_tree h).ofString?, Option.bind_some]
  exact ofTree?_tree (Decimal.Style.integer?_numeral _ _) hy

end Quantity

end AlertRegistry
