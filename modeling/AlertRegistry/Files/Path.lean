import AlertRegistry.Text.Pieces

/-!
# Paths

A path is absolute if it starts with a slash. Its parts are what stands between slashes; empty parts
mean nothing. A part `.` stays where it is and a part `..` goes up. Two paths are equal if their
parts are, those that stay in place left out.
-/

namespace AlertRegistry

/-- A path in a tree of files. -/
structure Path where
  /-- The path as it is written. -/
  text : String
deriving DecidableEq, Repr

namespace Path

/-- The path starts at the root. -/
def isAbsolute (p : Path) : Bool :=
  p.text.toList.head? = some '/'

/-- The parts that are not empty. -/
def parts (p : Path) : List String :=
  ((Text.pieces '/' p.text.toList).filter fun part => !part.isEmpty).map String.ofList

/-- The parts without those that stay in place. -/
def components (p : Path) : List String :=
  p.parts.filter (· ≠ ".")

/-- The places that a path passes, from a place on if it is not absolute; a part `..` is the way
back. -/
def trail (p : Path) (place : List String) : List (List String) :=
  let step (trail : List (List String)) (part : String) : List (List String) :=
    let here := trail.headD []
    (if part = ".." then here.dropLast else here ++ [part]) :: trail
  (p.components.foldl step [if p.isAbsolute then [] else place]).reverse

/-- Both paths are absolute, or neither is, and they have the same components. -/
def same (p q : Path) : Bool :=
  p.isAbsolute = q.isAbsolute ∧ p.components = q.components

/-- The parts without the last one that moves, and without those that stay in place before it. -/
def parentParts (parts : List String) : List String :=
  let stays (part : String) : Bool := part = "."
  ((((parts.reverse.dropWhile stays).drop 1).dropWhile stays)).reverse

theorem length_parentParts_lt {parts : List String} (h : parts ≠ []) :
    (parentParts parts).length < parts.length := by
  have dropWhile_le (l : List String) (p : String → Bool) : (l.dropWhile p).length ≤ l.length :=
    (List.dropWhile_sublist p).length_le
  have hpos := List.length_pos_iff.2 h
  have h₁ := dropWhile_le parts.reverse fun part => part = "."
  have h₂ := dropWhile_le ((parts.reverse.dropWhile fun part => part = ".").drop 1)
    fun part => part = "."
  simp only [parentParts, List.length_reverse, List.length_drop] at *
  omega

end Path

end AlertRegistry
