import AlertRegistry.Alert.Basic
import AlertRegistry.Page
import AlertRegistry.Text.Quoted

/-!
# Queries

A `Query` describes which records are wanted: equal cluster, service or context, a needle that one
of the searched texts contains, and a page. A predicate that is absent imposes nothing. Only alerts
have a context. Queries are shown in log lines by `Query.debugAlert` and `Query.debugExpression`.
-/

namespace AlertRegistry

/-- The number of rows on a page if nothing else is asked for. -/
def defaultLimit : UInt32 := 1000

/-- A description of the wanted records. -/
structure Query where
  /-- A text that one of the searched texts contains. -/
  needle : Option String := none
  /-- The cluster. -/
  cluster : Option String := none
  /-- The service. -/
  service : Option String := none
  /-- The context. -/
  context : Option Context := none
  /-- The number of rows on a page. -/
  limit : UInt32 := defaultLimit
  /-- A place on the wanted page. -/
  offset : Option UInt32 := none
deriving DecidableEq, Repr

namespace Query

/-- The query with pages of so many rows, at least 1. -/
def withLimit (q : Query) (limit : UInt32) : Query :=
  { q with limit := max limit 1 }

/-- The name under which a context is shown. -/
def debugContext : Option Context → String
  | none => "None"
  | some .cluster => "Some(Cluster)"
  | some .host => "Some(Host)"

/-- An optional number as it is shown. -/
def debugNumber : Option UInt32 → String
  | none => "None"
  | some n => "Some(" ++ toString n ++ ")"

/-- A value with named fields as it is shown. -/
def debugFields (name : String) (fields : List (String × String)) : String :=
  name ++ " \x7b " ++ ", ".intercalate (fields.map fun f => f.1 ++ ": " ++ f.2) ++ " \x7d"

/-- The fields that all queries have, with others after the service. -/
def debugWith (q : Query) (others : List (String × String)) : List (String × String) :=
  [("contains", Text.quoteOption q.needle), ("cluster", Text.quoteOption q.cluster),
    ("service", Text.quoteOption q.service)] ++ others
    ++ [("limit", toString q.limit), ("offset", debugNumber q.offset)]

/-- A query for alerts as it is shown. -/
def debugAlert (q : Query) : String :=
  debugFields "AlertQuery" (q.debugWith [("context", debugContext q.context)])

/-- A query for expressions as it is shown. -/
def debugExpression (q : Query) : String :=
  debugFields "ExpressionQuery" (q.debugWith [])

end Query

end AlertRegistry
