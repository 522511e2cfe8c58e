import AlertRegistry.Period.Basic
import AlertRegistry.Text.Digits

/-!
# Period texts

A period is written as ISO 8601 seconds, `PT600S` or `PT1.5S`: no leading zeros, and a fraction only
if there is one, without trailing zeros. Reading also takes weeks and days before the `T` and hours
and minutes after it, so `P1W`, `P1DT2H` and `PT10M` denote periods too. Years and months have no
fixed length and are refused, as is a text without any component or with a `T` that nothing follows.
A text is refused if a number, a product or a sum on the way to its seconds does not fit in 64 bits;
that is so exactly if its number of seconds does not.
-/

namespace AlertRegistry

/-- A text that denotes no period. -/
structure PeriodError where
  /-- The text. -/
  text : String
deriving DecidableEq, Repr

/-- The wording of the error. -/
def PeriodError.message (e : PeriodError) : String :=
  "invalid ISO-8601 period `" ++ e.text ++ "`"

namespace Period

/-- The components of a period text, each as its run of digits. -/
structure Components where
  /-- Weeks, `W`. -/
  weeks : Option (List Char) := none
  /-- Days, `D`. -/
  days : Option (List Char) := none
  /-- Hours, `H`. -/
  hours : Option (List Char) := none
  /-- Minutes, `M`. -/
  minutes : Option (List Char) := none
  /-- Seconds, `S`. -/
  seconds : Option (List Char) := none
  /-- The digits after the point of the seconds. -/
  fraction : List Char := []
deriving DecidableEq, Repr

/-- Takes a nonempty run of digits with its designator off the front, if one stands there. -/
def takeComponent (designator : Char) (cs : List Char) : Option (List Char) × List Char :=
  match cs.takeWhile Char.isDigit, cs.dropWhile Char.isDigit with
  | d :: ds, c :: rest => if c = designator then (some (d :: ds), rest) else (none, cs)
  | _, _ => (none, cs)

/-- Takes the seconds with their fraction off the front, if they stand there. -/
def takeSeconds (cs : List Char) : Option (List Char × List Char) × List Char :=
  match cs.takeWhile Char.isDigit, cs.dropWhile Char.isDigit with
  | d :: ds, 'S' :: rest => (some (d :: ds, []), rest)
  | d :: ds, '.' :: rest =>
    match rest.takeWhile Char.isDigit, rest.dropWhile Char.isDigit with
    | f :: fs, 'S' :: rest' =>
      if fs.length < 9 then (some (d :: ds, f :: fs), rest') else (none, cs)
    | _, _ => (none, cs)
  | _, _ => (none, cs)

/-- Reads what follows the `T`: at least one of hours, minutes and seconds, and nothing else. -/
def readTime (c : Components) (cs : List Char) : Option Components :=
  let (hours, cs) := takeComponent 'H' cs
  let (minutes, cs) := takeComponent 'M' cs
  let (seconds, cs) := takeSeconds cs
  if cs.isEmpty ∧ (hours.isSome ∨ minutes.isSome ∨ seconds.isSome) then
    some { c with
      hours, minutes
      seconds := seconds.map Prod.fst
      fraction := (seconds.map Prod.snd).getD [] }
  else none

/-- Reads a period text into its components. -/
def readComponents : List Char → Option Components
  | 'P' :: cs =>
    let (weeks, cs) := takeComponent 'W' cs
    let (days, cs) := takeComponent 'D' cs
    match cs with
    | [] => if weeks.isSome ∨ days.isSome then some { weeks, days } else none
    | 'T' :: cs => readTime { weeks, days } cs
    | _ => none
  | _ => none

/-- The number, unless it does not fit in 64 bits. -/
def word? (n : Nat) : Option Nat :=
  if n < 0x10000000000000000 then some n else none

/-- The seconds of a component with so many to its unit, zero for one that is absent. -/
def scaled? (unit : Nat) : Option (List Char) → Option Nat
  | none => some 0
  | some ds => do word? ((← word? (Text.natOfDigits ds)) * unit)

/-- The components that make up the whole seconds, each with the seconds of its unit. -/
def Components.units (c : Components) : List (Nat × Option (List Char)) :=
  [(604800, c.weeks), (86400, c.days), (3600, c.hours), (60, c.minutes), (1, c.seconds)]

/-- The whole seconds: the components are scaled one by one and then added up. -/
def Components.seconds? (c : Components) : Option Nat := do
  let parts ← c.units.mapM fun u => scaled? u.1 u.2
  parts.foldlM (fun total part => word? (total + part)) 0

/-- The number of a component, zero for one that is absent. -/
def amount (digits : Option (List Char)) : Nat :=
  (digits.map Text.natOfDigits).getD 0

/-- The exact number of whole seconds. -/
def Components.totalSeconds (c : Components) : Nat :=
  604800 * amount c.weeks + 86400 * amount c.days + 3600 * amount c.hours
    + 60 * amount c.minutes + amount c.seconds

/-- The fraction as nanoseconds: its digits extended to nine places. -/
def Components.nanoseconds (c : Components) : Nat :=
  Text.natOfDigits (Text.padRight 9 c.fraction)

/-- The period that a sequence of characters denotes. -/
def read? (cs : List Char) : Option Period := do
  let c ← readComponents cs
  ofParts? (← c.seconds?) c.nanoseconds

/-- The period that a text denotes. -/
def ofString (s : String) : Except PeriodError Period :=
  match read? s.toList with
  | some p => .ok p
  | none => .error ⟨s⟩

/-- The nine digits of a fraction without the zeros at its end. -/
def fractionDigits (nanoseconds : Nat) : List Char :=
  ((Text.padLeft 9 (Text.digitsOfNat nanoseconds)).reverse.dropWhile (· = '0')).reverse

/-- The characters of the seconds form. -/
def toChars (p : Period) : List Char :=
  'P' :: 'T' :: Text.digitsOfNat p.seconds
    ++ (if p.nanoseconds = 0 then [] else '.' :: fractionDigits p.nanoseconds) ++ ['S']

/-- The seconds form. -/
protected def toString (p : Period) : String :=
  String.ofList p.toChars

instance : ToString Period where
  toString := Period.toString

end Period

end AlertRegistry
