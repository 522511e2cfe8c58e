/-!
# Words

The words of a text are its runs of letters, digits, points and underscores. Every other character
but the blank is a word of its own.
-/

namespace AlertRegistry.Text

/-- The character is part of longer words. -/
def isWordChar (c : Char) : Bool :=
  c.isAlphanum || c == '_' || c == '.'

/-- A character that is no part of longer words, as a word; the blank is none. -/
def sign (c : Char) : List String :=
  if c = ' ' then [] else [String.ofList [c]]

/-- A run of characters, as a word before others; the empty run is none. -/
def wordBefore (run : List Char) (words : List String) : List String :=
  if run.isEmpty then words else String.ofList run :: words

/-- The run that a text begins with, which may be empty, and the words after it. -/
def splitRun : List Char → List Char × List String
  | [] => ([], [])
  | c :: cs =>
    let (run, words) := splitRun cs
    if isWordChar c then (c :: run, words) else ([], sign c ++ wordBefore run words)

/-- The words of a text. -/
def words (cs : List Char) : List String :=
  wordBefore (splitRun cs).1 (splitRun cs).2

/-- The text is a name in two parts with a point between them. -/
def IsName (s : String) : Prop :=
  (∀ c ∈ s.toList, isWordChar c = true) ∧ '.' ∈ s.toList

instance (s : String) : Decidable (IsName s) :=
  decidable_of_iff (s.toList.all isWordChar = true ∧ s.toList.contains '.' = true) <| by
    rw [IsName, List.all_eq_true, List.contains_iff_mem]

end AlertRegistry.Text
