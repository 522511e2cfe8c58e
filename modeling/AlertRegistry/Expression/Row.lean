import AlertRegistry.Expression.Basic
import AlertRegistry.RowError

/-!
# Expressions as rows

An `ExpressionRow` is an expression as it is stored: its identifier is a text, and a version and two
stamps are added. Every expression has a row; a row denotes an expression if its key is an
identifier.
-/

namespace AlertRegistry

/-- An expression as it is stored. -/
structure ExpressionRow where
  /-- The text of the identifier. -/
  id : String
  /-- The number of writes so far. -/
  version : Int := 0
  /-- The time of the first write, in milliseconds. -/
  createdAt : Int := 0
  /-- The time of the last write, in milliseconds. -/
  updatedAt : Int := 0
  /-- The cluster. -/
  cluster : String
  /-- The service. -/
  service : String
  /-- The metric. -/
  metric : String
  /-- The computation. -/
  script : String
deriving DecidableEq, Repr

namespace ExpressionRow

/-- The row of an expression that is not stored yet. -/
def ofExpression (e : Expression) : ExpressionRow :=
  { id := toString e.id, cluster := e.cluster, service := e.service, metric := e.metric,
    script := e.script }

/-- The expression that a row denotes. -/
def toExpression (r : ExpressionRow) : Except RowError Expression :=
  match Uuid.ofString? r.id with
  | some id =>
    .ok { id, cluster := r.cluster, service := r.service, metric := r.metric, script := r.script }
  | none => .error (.id "expressions" r.id)

end ExpressionRow

end AlertRegistry
