import AlertRegistry.Json.Printer
import AlertRegistry.Uuid

/-!
# Expressions

An `Expression` is a named metric computation. Its script is opaque: the registry keeps it and does
not read it. As a JSON document it is an object, or an array, of its five texts.
-/

namespace AlertRegistry

open Json (Tree)

/-- A named metric computation. -/
structure Expression where
  /-- The identifier, which never changes. -/
  id : Uuid
  /-- The cluster. -/
  cluster : String
  /-- The service. -/
  service : String
  /-- The metric. -/
  metric : String
  /-- The computation. -/
  script : String
deriving DecidableEq

namespace Expression

/-- The names of the fields of the document. -/
def fieldNames : List String := ["id", "cluster", "service", "metric", "script"]

/-- An expression from a JSON tree. -/
def ofTree? (t : Tree) : Option Expression := do
  match ← t.fields? fieldNames with
  | [some id, some cluster, some service, some metric, some script] =>
    return {
      id := ← Uuid.ofString? (← id.text?)
      cluster := ← cluster.text?
      service := ← service.text?
      metric := ← metric.text?
      script := ← script.text? }
  | _ => none

/-- The expression of a JSON text. -/
def ofString? (s : String) : Option Expression :=
  (Tree.ofString? s).bind ofTree?

/-- The expression as a JSON text. -/
def document (e : Expression) : String :=
  let text (s : String) := Json.writeText s.toList
  String.ofList (Json.enclose (List.zipWith Json.writeMember fieldNames
    [text (toString e.id), text e.cluster, text e.service, text e.metric, text e.script]))

/-- A new expression with a random identifier made of the given bits. -/
def ofRandom (bits : Nat) (cluster service metric script : String) : Expression :=
  { id := Uuid.ofRandom bits, cluster, service, metric, script }

end Expression

end AlertRegistry
