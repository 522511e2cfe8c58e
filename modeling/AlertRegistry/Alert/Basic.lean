import AlertRegistry.Extensions
import AlertRegistry.Period.Basic
import AlertRegistry.Uuid

/-!
# Alerts

An `Alert` is a threshold rule over one statistic of a metric: in a context, over a period, the
statistic is compared with a quantity. Contexts and operators have fixed names.
-/

namespace AlertRegistry

/-- The scope in which an alert is evaluated. -/
inductive Context where
  /-- Across the whole cluster. -/
  | cluster
  /-- On each host. -/
  | host
deriving DecidableEq, Repr

namespace Context

/-- The name of the context. -/
def name : Context → String
  | cluster => "CLUSTER"
  | host => "HOST"

/-- The context with the given name. -/
def ofName? : String → Option Context
  | "CLUSTER" => some cluster
  | "HOST" => some host
  | _ => none

@[simp] theorem ofName?_name (c : Context) : ofName? c.name = some c := by
  cases c <;> rfl

end Context

/-- The comparison of the statistic with the threshold. -/
inductive Operator where
  /-- Equal to the threshold. -/
  | equalTo
  /-- Different from the threshold. -/
  | notEqualTo
  /-- Above the threshold. -/
  | greaterThan
  /-- At or above the threshold. -/
  | greaterThanOrEqualTo
  /-- Below the threshold. -/
  | lessThan
  /-- At or below the threshold. -/
  | lessThanOrEqualTo
deriving DecidableEq, Repr

namespace Operator

/-- The name of the operator. -/
def name : Operator → String
  | equalTo => "EQUAL_TO"
  | notEqualTo => "NOT_EQUAL_TO"
  | greaterThan => "GREATER_THAN"
  | greaterThanOrEqualTo => "GREATER_THAN_OR_EQUAL_TO"
  | lessThan => "LESS_THAN"
  | lessThanOrEqualTo => "LESS_THAN_OR_EQUAL_TO"

/-- The operator with the given name. -/
def ofName? : String → Option Operator
  | "EQUAL_TO" => some equalTo
  | "NOT_EQUAL_TO" => some notEqualTo
  | "GREATER_THAN" => some greaterThan
  | "GREATER_THAN_OR_EQUAL_TO" => some greaterThanOrEqualTo
  | "LESS_THAN" => some lessThan
  | "LESS_THAN_OR_EQUAL_TO" => some lessThanOrEqualTo
  | _ => none

@[simp] theorem ofName?_name (o : Operator) : ofName? o.name = some o := by
  cases o <;> rfl

end Operator

/-- A threshold: a number with an optional unit. -/
structure Quantity where
  /-- The number. -/
  value : Float
  /-- The unit. -/
  unit : Option String := none
deriving DecidableEq

/-- A threshold rule over one statistic of a metric. -/
structure Alert where
  /-- The identifier, which never changes. -/
  id : Uuid
  /-- The name. -/
  name : String
  /-- The cluster. -/
  cluster : String
  /-- The service. -/
  service : String
  /-- The scope. -/
  context : Context
  /-- The metric. -/
  metric : String
  /-- The statistic of the metric. -/
  statistic : String
  /-- The period over which the statistic is taken. -/
  period : Period
  /-- The comparison. -/
  operator : Operator
  /-- The threshold. -/
  threshold : Quantity
  /-- Free attributes. -/
  extensions : Extensions

end AlertRegistry
