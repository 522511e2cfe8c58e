import AlertRegistry.Table.Basic

/-!
# The tables of the registry

There are three tables: the alerts, their side-records, and the expressions. Alerts and expressions
carry a version, which is at least 1, and two stamps, of which the second is not before the first.
The key of a side-record is the key of its alert.
-/

namespace AlertRegistry

/-- The columns of an alert. -/
inductive AlertColumn where
  /-- The identifier. -/
  | id
  /-- The number of writes. -/
  | version
  /-- The time of the first write. -/
  | createdAt
  /-- The time of the last write. -/
  | updatedAt
  /-- The name. -/
  | name
  /-- The cluster. -/
  | cluster
  /-- The service. -/
  | service
  /-- The name of the context. -/
  | context
  /-- The metric. -/
  | metric
  /-- The statistic. -/
  | statistic
  /-- The text of the period. -/
  | period
  /-- The name of the operator. -/
  | operator
  /-- The document of the threshold. -/
  | quantity
deriving DecidableEq, Repr

/-- The columns of a side-record. -/
inductive SideColumn where
  /-- The identifier of the alert. -/
  | alertId
  /-- How severe the alert is. -/
  | severity
  /-- Whom to notify. -/
  | recipient
  /-- How many checks may fail. -/
  | attempts
  /-- After how many seconds a value is stale. -/
  | freshness
deriving DecidableEq, Repr

/-- The columns of an expression. -/
inductive ExpressionColumn where
  /-- The identifier. -/
  | id
  /-- The number of writes. -/
  | version
  /-- The time of the first write. -/
  | createdAt
  /-- The time of the last write. -/
  | updatedAt
  /-- The cluster. -/
  | cluster
  /-- The service. -/
  | service
  /-- The metric. -/
  | metric
  /-- The computation. -/
  | script
deriving DecidableEq, Repr

/-- The check that a tuple was written at least once. -/
def versionCheck {γ : Type} (version : γ) : Check γ where
  text := "version >= 1"
  passes t := (t version).permitsGe (.integer 1)

/-- The check that the last write is not before the first one. -/
def stampCheck {γ : Type} (createdAt updatedAt : γ) : Check γ where
  text := "updated_at >= created_at"
  passes t := (t updatedAt).permitsGe (t createdAt)

instance : Layout AlertColumn where
  table := "alerts"
  columns := [.id, .version, .createdAt, .updatedAt, .name, .cluster, .service, .context, .metric,
    .statistic, .period, .operator, .quantity]
  name
    | .id => "id"
    | .version => "version"
    | .createdAt => "created_at"
    | .updatedAt => "updated_at"
    | .name => "name"
    | .cluster => "cluster"
    | .service => "service"
    | .context => "context"
    | .metric => "metric"
    | .statistic => "statistic"
    | .period => "period"
    | .operator => "operator"
    | .quantity => "quantity"
  affinity
    | .version | .createdAt | .updatedAt => .integer
    | _ => .text
  required _ := true
  key := .id
  default
    | .version => .integer 1
    | _ => .null
  checks := [versionCheck .version, stampCheck .createdAt .updatedAt]

instance : Layout SideColumn where
  table := "alert_nagios_extensions"
  columns := [.alertId, .severity, .recipient, .attempts, .freshness]
  name
    | .alertId => "alert_id"
    | .severity => "severity"
    | .recipient => "notify"
    | .attempts => "max_check_attempts"
    | .freshness => "freshness_threshold_seconds"
  affinity
    | .attempts | .freshness => .integer
    | _ => .text
  required c := c == .alertId
  key := .alertId
  default _ := .null
  checks := []

instance : Layout ExpressionColumn where
  table := "expressions"
  columns := [.id, .version, .createdAt, .updatedAt, .cluster, .service, .metric, .script]
  name
    | .id => "id"
    | .version => "version"
    | .createdAt => "created_at"
    | .updatedAt => "updated_at"
    | .cluster => "cluster"
    | .service => "service"
    | .metric => "metric"
    | .script => "script"
  affinity
    | .version | .createdAt | .updatedAt => .integer
    | _ => .text
  required _ := true
  key := .id
  default
    | .version => .integer 1
    | _ => .null
  checks := [versionCheck .version, stampCheck .createdAt .updatedAt]

end AlertRegistry
