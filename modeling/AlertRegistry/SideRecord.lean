import AlertRegistry.Extensions
import AlertRegistry.Text.Blank

/-!
# Side-records

Of an alert's extension map four attributes are kept, in a typed record of their own: how severe
the alert is, whom to notify, how many checks may fail and after how many seconds a value is stale.
`SideRecord.ofExtensions` reads the record from a map, `SideRecord.toExtensions` shows it as a map.

An empty map has no record. A map that is not empty must name at least one of the four keys; other
keys beside them are dropped, and a key that is absent or null leaves its field empty. The first two
fields are texts. The other two are 64-bit integers: an integer is taken as it is, a double if it is
integral and in range, and a text if it is a signed run of digits with white space around it.
-/

namespace AlertRegistry

open Json (Value)

/-- The attributes that are kept beside an alert. -/
structure SideRecord where
  /-- How severe the alert is. -/
  severity : Option String := none
  /-- Whom to notify. -/
  recipient : Option String := none
  /-- How many checks may fail. -/
  attempts : Option Int := none
  /-- After how many seconds a value is stale. -/
  freshness : Option Int := none
deriving DecidableEq, Repr

/-- The keys of the attributes in an extension map. -/
inductive ExtensionKey where
  /-- The key of the severity. -/
  | severity
  /-- The key of the recipient. -/
  | recipient
  /-- The key of the number of attempts. -/
  | attempts
  /-- The key of the freshness limit. -/
  | freshness
deriving DecidableEq, Repr

namespace ExtensionKey

/-- The key as it stands in a map. -/
def name : ExtensionKey → String
  | severity => "severity"
  | recipient => "notify"
  | attempts => "maxCheckAttempts"
  | freshness => "freshnessThreshold"

/-- All keys, in the order in which they are read. -/
def all : List ExtensionKey := [severity, recipient, attempts, freshness]

/-- What a value under the key must be. -/
def expected : ExtensionKey → String
  | severity | recipient => "a string"
  | attempts | freshness => "an integer"

end ExtensionKey

/-- Why an extension map has no side-record. -/
inductive ExtensionError where
  /-- The value under the key is neither null nor of the key's type. -/
  | wrongType (key : ExtensionKey)
  /-- The number under the key is integral but no 64-bit integer. -/
  | outOfRange (key : ExtensionKey)
  /-- The map has keys, but none of the four. -/
  | noKnownKeys (keys : List String)
deriving DecidableEq, Repr

/-- The wording of the error. -/
def ExtensionError.message : ExtensionError → String
  | wrongType key => "extension `" ++ key.name ++ "` must be " ++ key.expected
  | outOfRange key => "extension `" ++ key.name ++ "` is out of the 64-bit integer range"
  | noKnownKeys keys =>
    "extensions [" ++ ", ".intercalate keys ++ "] carry none of "
      ++ "|".intercalate (ExtensionKey.all.map ExtensionKey.name)

namespace SideRecord

/-- The text under a key. -/
def readText (e : Extensions) (key : ExtensionKey) : Except ExtensionError (Option String) :=
  match e.get? key.name with
  | none | some .null => .ok none
  | some (.text s) => .ok (some s)
  | some _ => .error (.wrongType key)

/-- The integer, or the error that it is out of range. -/
def inRange (key : ExtensionKey) (n : Int) : Except ExtensionError (Option Int) :=
  if Text.FitsInt64 n then .ok (some n) else .error (.outOfRange key)

/-- The integer under a key. -/
def readInteger (e : Extensions) (key : ExtensionKey) : Except ExtensionError (Option Int) :=
  match e.get? key.name with
  | none | some .null => .ok none
  | some (.integer n) => inRange key n
  | some (.number x) =>
    match Decimal.Binary.ofFloat? x with
    | some b => if b.isIntegral then inRange key b.truncate else .error (.wrongType key)
    | none => .error (.wrongType key)
  | some (.text s) =>
    match Text.readInteger? (Text.trimChars s.toList) with
    | some n => if Text.FitsInt64 n then .ok (some n) else .error (.wrongType key)
    | none => .error (.wrongType key)
  | some _ => .error (.wrongType key)

/-- The side-record of an extension map, none for the empty map. -/
def ofExtensions (e : Extensions) : Except ExtensionError (Option SideRecord) := do
  if e.toList.isEmpty then return none
  if ExtensionKey.all.all fun key => (e.get? key.name).isNone then throw (.noKnownKeys e.keys)
  return some {
    severity := ← readText e .severity
    recipient := ← readText e .recipient
    attempts := ← readInteger e .attempts
    freshness := ← readInteger e .freshness }

/-- An optional text as a JSON value. -/
def textValue (s : Option String) : Value :=
  (s.map Value.text).getD .null

/-- An optional integer as a JSON value. -/
def integerValue (n : Option Int) : Value :=
  (n.map Value.integer).getD .null

/-- The map of a side-record: all four keys, null where the field is empty. -/
def toExtensions : Option SideRecord → Extensions
  | none => ∅
  | some r =>
    (((Extensions.empty.insert ExtensionKey.severity.name (textValue r.severity)).insert
      ExtensionKey.recipient.name (textValue r.recipient)).insert
      ExtensionKey.attempts.name (integerValue r.attempts)).insert
      ExtensionKey.freshness.name (integerValue r.freshness)

end SideRecord

end AlertRegistry
