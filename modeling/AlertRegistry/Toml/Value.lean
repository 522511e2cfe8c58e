/-!
# TOML values

A TOML document is a table of values under text keys; the keys of a table are distinct. A `Moment`
is a date, a time of day, or both with an optional offset from universal time.
-/

namespace AlertRegistry.Toml

/-- A day of the calendar. -/
structure Date where
  /-- The year. -/
  year : Nat
  /-- The month, from 1. -/
  month : Nat
  /-- The day, from 1. -/
  day : Nat
deriving DecidableEq, Repr

/-- A time of day. -/
structure Time where
  /-- The hour. -/
  hour : Nat
  /-- The minute. -/
  minute : Nat
  /-- The second; 60 is a leap second. -/
  second : Nat
  /-- The fraction of the second. -/
  nanosecond : Nat := 0
deriving DecidableEq, Repr

/-- A date, a time, or both. -/
structure Moment where
  /-- The date. -/
  date : Option Date := none
  /-- The time of day. -/
  time : Option Time := none
  /-- The offset from universal time, in minutes. -/
  offset : Option Int := none
deriving DecidableEq, Repr

/-- A value. -/
inductive Value where
  /-- A text. -/
  | text (s : String)
  /-- A 64-bit integer. -/
  | integer (n : Int)
  /-- A double. -/
  | number (x : Float)
  /-- A truth value. -/
  | bool (b : Bool)
  /-- A date or time. -/
  | moment (m : Moment)
  /-- An array. -/
  | array (items : List Value)
  /-- A table with its members in the order in which they were made. -/
  | table (members : List (String × Value))

end AlertRegistry.Toml
