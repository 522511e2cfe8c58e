import AlertRegistry.Period.Designator
import AlertRegistry.SideRecord

/-!
# When records and rows do not correspond

A record is stored as a row of texts. `RecordError` says why a record has no row, `RowError` why a
row found in the store denotes no record.
-/

namespace AlertRegistry

/-- Why a record cannot be stored. -/
inductive RecordError where
  /-- The threshold is infinite or not a number. -/
  | thresholdNotFinite (value : Float)
  /-- The extension map has no side-record. -/
  | extensions (e : ExtensionError)
deriving DecidableEq

/-- The name of a double that is infinite or not a number. -/
def nameOfNonFinite (x : Float) : String :=
  if x.isNaN then "NaN" else if x < 0.0 then "-inf" else "inf"

/-- The wording of the error. -/
def RecordError.message : RecordError → String
  | thresholdNotFinite x => "threshold value " ++ nameOfNonFinite x ++ " is not finite"
  | extensions e => e.message

/-- Why a stored row denotes no record. -/
inductive RowError where
  /-- The key, in the named table, is no identifier. -/
  | id (table text : String)
  /-- The context has no such name. -/
  | context (text : String)
  /-- The operator has no such name. -/
  | operator (text : String)
  /-- The period is malformed. -/
  | period (e : PeriodError)
  /-- The threshold is no document of a quantity. -/
  | quantity
deriving DecidableEq

/-- The wording of the error. -/
def RowError.message : RowError → String
  | id table text => "invalid uuid value `" ++ text ++ "` in " ++ table ++ ".id"
  | context text => "invalid context `" ++ text ++ "` in alerts.context"
  | operator text => "invalid operator `" ++ text ++ "` in alerts.operator"
  | period e => e.message ++ " in alerts.period"
  | quantity => "invalid quantity blob in alerts.quantity"

end AlertRegistry
