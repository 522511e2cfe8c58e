import AlertRegistry.Expression.Tuple
import AlertRegistry.Record

/-!
# Expressions as records

Nothing is kept beside the rows of expressions.
-/

namespace AlertRegistry

instance : Record Expression ExpressionRow ExpressionColumn where
  entity := .expression
  id e := e.id
  toRow e := .ok (ExpressionRow.ofExpression e)
  ofRow := ExpressionRow.toExpression
  key r := r.id
  version r := r.version
  withVersion r n := { r with version := n }
  stamps r := (r.createdAt, r.updatedAt)
  table db := db.expressions
  versionColumn := .version
  readRow _ := ExpressionRow.ofTuple
  filter := ExpressionRow.filter
  search := ExpressionRow.search
  insert := ExpressionRow.insert
  replace := ExpressionRow.replace
  writeBeside := none
  clearBeside := none
  clear := Database.deleteExpressions fun _ => true
  describe := Query.debugExpression
  reportsQueries := false

end AlertRegistry
