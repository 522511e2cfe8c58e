import AlertRegistry.Text.Digits
import AlertRegistry.Toml.Value

/-!
# TOML dates and times

A date is `1979-05-27`, a time `07:32:00` with an optional fraction, and both may follow each other
with a `T` or a space between them, then with an optional offset `Z` or `+07:30`. All parts must be
in range, the day in the range of its month.
-/

namespace AlertRegistry.Toml

/-- Reads so many digits as a number between two bounds. -/
def readPart (width lo hi : Nat) (cs : List Char) : Option (Nat × List Char) := do
  let n ← Text.readNat? (cs.take width)
  if (cs.take width).length = width ∧ lo ≤ n ∧ n ≤ hi then some (n, cs.drop width) else none

/-- Drops a character from the front, which must be there. -/
def expect (c : Char) : List Char → Option (List Char)
  | d :: cs => if c = d then some cs else none
  | [] => none

/-- The number of days of a month. -/
def daysOfMonth (year month : Nat) : Nat :=
  if month = 2 then if year % 4 = 0 ∧ (year % 100 ≠ 0 ∨ year % 400 = 0) then 29 else 28
  else if month = 4 ∨ month = 6 ∨ month = 9 ∨ month = 11 then 30
  else 31

/-- Reads a date. -/
def readDate (cs : List Char) : Option (Date × List Char) := do
  let (year, cs) ← readPart 4 0 9999 cs
  let (month, cs) ← readPart 2 1 12 (← expect '-' cs)
  let (day, cs) ← readPart 2 1 (daysOfMonth year month) (← expect '-' cs)
  return ({ year, month, day }, cs)

/-- Reads the fraction of a second, zero if there is none. Digits beyond the ninth are dropped. -/
def readNanoseconds : List Char → Nat × List Char
  | '.' :: c :: cs =>
    if c.isDigit then
      let ds := (c :: cs).takeWhile Char.isDigit
      (Text.natOfDigits (Text.padRight 9 (ds.take 9)), (c :: cs).dropWhile Char.isDigit)
    else (0, '.' :: c :: cs)
  | cs => (0, cs)

/-- Reads a time of day. -/
def readTime (cs : List Char) : Option (Time × List Char) := do
  let (hour, cs) ← readPart 2 0 23 cs
  let (minute, cs) ← readPart 2 0 59 (← expect ':' cs)
  let (second, cs) ← readPart 2 0 60 (← expect ':' cs)
  let (nanosecond, cs) := readNanoseconds cs
  return ({ hour, minute, second, nanosecond }, cs)

/-- Reads an offset from universal time. -/
def readOffset : List Char → Option (Int × List Char)
  | [] => none
  | c :: cs =>
    if c = 'Z' ∨ c = 'z' then some (0, cs)
    else if c = '+' ∨ c = '-' then do
      let (hour, cs) ← readPart 2 0 23 cs
      let (minute, cs) ← readPart 2 0 59 (← expect ':' cs)
      let n : Int := hour * 60 + minute
      return (if c = '-' then -n else n, cs)
    else none

/-- Reads the time after a date, if one follows, and its offset. -/
def readTimeOfDate (date : Date) : List Char → Moment × List Char
  | [] => ({ date }, [])
  | c :: cs =>
    if c = 'T' ∨ c = 't' ∨ c = ' ' then
      match readTime cs with
      | none => ({ date }, c :: cs)
      | some (time, rest) =>
        match readOffset rest with
        | none => ({ date, time }, rest)
        | some (offset, rest) => ({ date, time, offset }, rest)
    else ({ date }, c :: cs)

/-- Reads a date, a time, or both. -/
def readMoment (cs : List Char) : Option (Moment × List Char) :=
  match readDate cs with
  | some (date, rest) => some (readTimeOfDate date rest)
  | none => (readTime cs).map fun (time, rest) => ({ time }, rest)

end AlertRegistry.Toml
