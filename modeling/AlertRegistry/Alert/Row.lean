import AlertRegistry.Alert.Document
import AlertRegistry.RowError

/-!
# Alerts as rows

An `AlertRow` is an alert as it is stored: every field is a text, the threshold is a JSON document,
the extension map has become a side-record, and a version and two stamps are added. A row that was
not stored yet has version 0. `AlertRow.ofAlert` fails only for a threshold that is not finite and
for an extension map without side-record; `AlertRow.toAlert` fails for texts that denote nothing.
-/

namespace AlertRegistry

/-- An alert as it is stored. -/
structure AlertRow where
  /-- The text of the identifier. -/
  id : String
  /-- The number of writes so far. -/
  version : Int := 0
  /-- The time of the first write, in milliseconds. -/
  createdAt : Int := 0
  /-- The time of the last write, in milliseconds. -/
  updatedAt : Int := 0
  /-- The name. -/
  name : String
  /-- The cluster. -/
  cluster : String
  /-- The service. -/
  service : String
  /-- The name of the context. -/
  context : String
  /-- The metric. -/
  metric : String
  /-- The statistic. -/
  statistic : String
  /-- The text of the period. -/
  period : String
  /-- The name of the operator. -/
  operator : String
  /-- The document of the threshold. -/
  quantity : String
  /-- The side-record. -/
  side : Option SideRecord := none
deriving DecidableEq, Repr

namespace AlertRow

/-- The row of an alert that is not stored yet. -/
def ofAlert (a : Alert) : Except RecordError AlertRow := do
  if !a.threshold.value.isFinite then throw (.thresholdNotFinite a.threshold.value)
  let side ← (SideRecord.ofExtensions a.extensions).mapError .extensions
  return {
    id := toString a.id
    name := a.name
    cluster := a.cluster
    service := a.service
    context := a.context.name
    metric := a.metric
    statistic := a.statistic
    period := toString a.period
    operator := a.operator.name
    quantity := a.threshold.document
    side }

/-- A value, or the error that it is missing. -/
def orError {α : Type} (e : RowError) : Option α → Except RowError α
  | some a => .ok a
  | none => .error e

/-- The alert that a row denotes. -/
def toAlert (r : AlertRow) : Except RowError Alert := do
  let id ← orError (.id "alerts" r.id) (Uuid.ofString? r.id)
  let context ← orError (.context r.context) (Context.ofName? r.context)
  let operator ← orError (.operator r.operator) (Operator.ofName? r.operator)
  let period ← (Period.ofString r.period).mapError .period
  let threshold ← orError .quantity (Quantity.ofString? r.quantity)
  return {
    id, context, operator, period, threshold
    name := r.name
    cluster := r.cluster
    service := r.service
    metric := r.metric
    statistic := r.statistic
    extensions := SideRecord.toExtensions r.side }

end AlertRow

end AlertRegistry
