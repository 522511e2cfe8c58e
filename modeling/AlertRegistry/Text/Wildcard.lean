import AlertRegistry.Text.Letters
import AlertRegistry.Text.Points

/-!
# Wildcard patterns

A pattern is matched against a whole text. `%` stands for any run of characters, `_` for any one
character, and a backslash makes the next character stand for itself; all other characters stand
for themselves, ASCII letters for either case. Patterns and texts are sequences of code points, see
`AlertRegistry.Text.Points`. `escapeNeedle` writes a text so that it only matches itself, and
`containing` is the pattern of the texts that contain it.
-/

namespace AlertRegistry.Text

/-- One element of a pattern. -/
inductive Wildcard where
  /-- Any run of characters, the empty one included. -/
  | anyRun
  /-- Any one character. -/
  | anyOne
  /-- The character with this code point, or the same ASCII letter in the other case. -/
  | exactly (point : Nat)
deriving DecidableEq, Repr

namespace Wildcard

/-- The pattern that a sequence of code points denotes; `none` if it ends in a lone backslash. -/
def ofPoints? : List Nat → Option (List Wildcard)
  | [] => some []
  | [92] => none
  | 92 :: p :: ps => (ofPoints? ps).map (exactly p :: ·)
  | 37 :: ps => (ofPoints? ps).map (anyRun :: ·)
  | 95 :: ps => (ofPoints? ps).map (anyOne :: ·)
  | p :: ps => (ofPoints? ps).map (exactly p :: ·)

/-- The pattern matches the whole sequence of code points. -/
def matchAll : List Wildcard → List Nat → Bool
  | [], ts => ts.isEmpty
  | anyRun :: ps, [] => matchAll ps []
  | anyRun :: ps, t :: ts => matchAll ps (t :: ts) || matchAll (anyRun :: ps) ts
  | anyOne :: _, [] => false
  | anyOne :: ps, _ :: ts => matchAll ps ts
  | exactly _ :: _, [] => false
  | exactly p :: ps, t :: ts => lowerPoint p == lowerPoint t && matchAll ps ts
termination_by ps ts => ps.length + ts.length

end Wildcard

/-- The text of a pattern that matches exactly the given text, up to the case of ASCII letters. -/
def escapeNeedle (needle : List Char) : List Char :=
  needle.flatMap fun c => if c = '\\' ∨ c = '%' ∨ c = '_' then ['\\', c] else [c]

/-- The text of the pattern of all texts that contain the given one. -/
def containing (needle : List Char) : List Char :=
  '%' :: escapeNeedle needle ++ ['%']

/-- The sequence of code points matches the pattern text. -/
def matchesPattern (pattern : List Char) (points : List Nat) : Bool :=
  match Wildcard.ofPoints? (searchPoints pattern) with
  | none => false
  | some ps => Wildcard.matchAll ps points

end AlertRegistry.Text
