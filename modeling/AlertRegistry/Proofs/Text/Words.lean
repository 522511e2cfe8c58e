import AlertRegistry.Text.Words
import Mathlib.Data.List.Basic

/-!
# The words of joined texts

At a character that is no part of longer words a text falls into the words before it, the character
itself, and the words after it (`words_append_cons`). So the words of texts that are joined by a
word between blanks are those of the texts, with that word between them (`words_intercalate`). A
name is one word (`words_of_isName`).
-/

namespace AlertRegistry.Text

theorem wordBefore_append (run : List Char) (ws vs : List String) :
    wordBefore run (ws ++ vs) = wordBefore run ws ++ vs := by
  unfold wordBefore
  split <;> rfl

/-- What comes behind a character that ends words does not touch the run before it. -/
theorem splitRun_append_cons {d : Char} (hd : isWordChar d = false) (cs ds : List Char) :
    splitRun (cs ++ d :: ds)
      = ((splitRun cs).1, (splitRun cs).2 ++ (sign d ++ words ds)) := by
  induction cs with
  | nil =>
    show splitRun (d :: ds) = _
    simp only [splitRun, hd, Bool.false_eq_true, if_false, List.nil_append]
    rfl
  | cons c cs ih =>
    simp only [List.cons_append, splitRun, ih]
    split
    · rfl
    · rw [wordBefore_append, List.append_assoc]

theorem words_append_cons {d : Char} (hd : isWordChar d = false) (cs ds : List Char) :
    words (cs ++ d :: ds) = words cs ++ (sign d ++ words ds) := by
  unfold words
  rw [splitRun_append_cons hd, wordBefore_append]
  rfl

/-- A blank only separates words. -/
theorem words_append_blank (cs ds : List Char) :
    words (cs ++ ' ' :: ds) = words cs ++ words ds :=
  words_append_cons (by decide) cs ds

theorem splitRun_of_run {cs : List Char} (h : ∀ c ∈ cs, isWordChar c = true) :
    splitRun cs = (cs, []) := by
  induction cs with
  | nil => rfl
  | cons c cs ih =>
    rw [List.forall_mem_cons] at h
    simp only [splitRun, ih h.2, h.1, if_true]

/-- A run of characters is one word. -/
theorem words_of_run {cs : List Char} (h : ∀ c ∈ cs, isWordChar c = true) (hne : cs ≠ []) :
    words cs = [String.ofList cs] := by
  unfold words wordBefore
  rw [splitRun_of_run h, if_neg (by simpa using hne)]

theorem words_of_isName {s : String} (h : IsName s) : words s.toList = [s] := by
  rw [words_of_run h.1 (List.ne_nil_of_mem h.2), String.ofList_toList]

/-- A name is none of the words without a point. -/
theorem ne_of_isName {s w : String} (h : IsName s) (hw : '.' ∉ w.toList) : s ≠ w := by
  rintro rfl
  exact hw h.2

/-- The words of texts that are joined by a word between blanks. -/
theorem words_intercalate {w : String} (hw : words w.toList = [w]) (ts : List String) :
    words ((" " ++ w ++ " ").intercalate ts).toList
      = [w].intercalate (ts.map fun t => words t.toList) := by
  induction ts with
  | nil => rfl
  | cons t ts ih =>
    cases ts with
    | nil => simp
    | cons u ts =>
      have hjoined : ((" " ++ w ++ " ").intercalate (t :: u :: ts)).toList
          = t.toList ++ ' ' :: (w.toList
            ++ ' ' :: ((" " ++ w ++ " ").intercalate (u :: ts)).toList) := by
        rw [String.intercalate_cons_cons]
        simp
      rw [hjoined, words_append_blank, words_append_blank, hw, ih]
      simp only [List.map_cons, List.intercalate_cons_cons, List.append_assoc]

/-- What stands in a joined list is the separator or stands in one of its parts. -/
theorem mem_intercalate {α : Type} {sep a : α} {ls : List (List α)}
    (h : a ∈ [sep].intercalate ls) : a = sep ∨ ∃ l ∈ ls, a ∈ l := by
  induction ls with
  | nil => simp at h
  | cons l ls ih =>
    cases ls with
    | nil => exact .inr ⟨l, List.mem_cons_self, by simpa using h⟩
    | cons m ls =>
      rw [List.intercalate_cons_cons, List.mem_append, List.mem_append, List.mem_singleton] at h
      obtain (hl | hsep) | hrest := h
      · exact .inr ⟨l, List.mem_cons_self, hl⟩
      · exact .inl hsep
      · exact (ih hrest).imp_right fun ⟨m, hm, ha⟩ => ⟨m, List.mem_cons_of_mem l hm, ha⟩

end AlertRegistry.Text
