/-!
# Evaluation periods

A `Period` is a length of time: whole seconds in 64 bits and a fraction in nanoseconds.
-/

namespace AlertRegistry

/-- A length of time. -/
@[ext] structure Period where
  /-- The whole seconds. -/
  seconds : Nat
  /-- The fraction of a second, in nanoseconds. -/
  nanoseconds : Nat
  /-- The seconds fit in 64 bits. -/
  seconds_lt : seconds < 0x10000000000000000 := by decide
  /-- The fraction is less than a second. -/
  nanoseconds_lt : nanoseconds < 1000000000 := by decide
deriving DecidableEq, Repr

namespace Period

/-- The period of so many seconds and nanoseconds, if both are in range. -/
def ofParts? (seconds nanoseconds : Nat) : Option Period :=
  if h : seconds < 0x10000000000000000 ∧ nanoseconds < 1000000000 then
    some { seconds, nanoseconds, seconds_lt := h.1, nanoseconds_lt := h.2 }
  else none

/-- The period of so many seconds and nanoseconds, whole seconds carried out of the fraction. -/
def ofCarried? (seconds nanoseconds : Nat) : Option Period :=
  ofParts? (seconds + nanoseconds / 1000000000) (nanoseconds % 1000000000)

theorem ofParts?_eq_some_iff {s n : Nat} {p : Period} :
    ofParts? s n = some p ↔ p.seconds = s ∧ p.nanoseconds = n := by
  have := p.seconds_lt
  have := p.nanoseconds_lt
  simp only [ofParts?]
  split
  · simp only [Option.some.injEq, Period.ext_iff]; omega
  · simp only [reduceCtorEq, false_iff]; omega

end Period

end AlertRegistry
