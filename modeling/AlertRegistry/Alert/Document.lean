import AlertRegistry.Alert.Basic

/-!
# Alerts as JSON documents

An alert is written as an object with its fields in a fixed order; a quantity leaves out a unit that
it does not have. Reading takes an object or the array of the fields in that order. The extensions
of an alert and the unit of a quantity may be missing, the unit may also be null.
-/

namespace AlertRegistry

open Json (Tree)

/-- A quantity from a JSON tree. -/
def Quantity.ofTree? (t : Tree) : Option Quantity := do
  match ← t.fields? ["value", "unit"] with
  | [some value, unit] =>
    return {
      value := ← value.float?
      unit := ← match unit with
        | none | some .null => some none
        | some u => u.text?.map some }
  | _ => none

/-- The characters of a quantity as a JSON document. -/
def Quantity.write (q : Quantity) : List Char :=
  Json.enclose (Json.writeMember "value" (Json.writeFloat q.value) ::
    match q.unit with
    | none => []
    | some u => [Json.writeMember "unit" (Json.writeText u.toList)])

/-- The quantity of a JSON text. -/
def Quantity.ofString? (s : String) : Option Quantity :=
  (Tree.ofString? s).bind Quantity.ofTree?

/-- The quantity as a JSON text. -/
def Quantity.document (q : Quantity) : String :=
  String.ofList q.write

/-- A period from a JSON tree, which has exactly the two parts; whole seconds in the fraction are
carried over. -/
def Period.ofTree? (t : Tree) : Option Period := do
  let fields ← match t with
    | .object [(k₁, t₁), (k₂, t₂)] => Tree.fields? ["secs", "nanos"] (.object [(k₁, t₁), (k₂, t₂)])
    | .array [t₁, t₂] => some [some t₁, some t₂]
    | _ => none
  match fields with
  | [some seconds, some nanoseconds] =>
    Period.ofCarried? (← seconds.natBelow? 0x10000000000000000)
      (← nanoseconds.natBelow? 0x100000000)
  | _ => none

/-- The characters of a period as a JSON document. -/
def Period.write (p : Period) : List Char :=
  Json.enclose [Json.writeMember "secs" (Json.writeInteger p.seconds),
    Json.writeMember "nanos" (Json.writeInteger p.nanoseconds)]

namespace Alert

/-- The names of the fields of the document. -/
def fieldNames : List String :=
  ["id", "name", "cluster", "service", "context", "metric", "statistic", "period", "operator",
    "value", "extensions"]

/-- An alert from a JSON tree. -/
def ofTree? (t : Tree) : Option Alert := do
  match ← t.fields? fieldNames with
  | [some id, some name, some cluster, some service, some context, some metric, some statistic,
      some period, some operator, some threshold, extensions] =>
    return {
      id := ← Uuid.ofString? (← id.text?)
      name := ← name.text?
      cluster := ← cluster.text?
      service := ← service.text?
      context := ← Context.ofName? (← context.caseName?)
      metric := ← metric.text?
      statistic := ← statistic.text?
      period := ← Period.ofTree? period
      operator := ← Operator.ofName? (← operator.caseName?)
      threshold := ← Quantity.ofTree? threshold
      extensions := ← match extensions with
        | none => some ∅
        | some e => (e.object? (Json.maxDepth - 1)).map Extensions.ofList }
  | _ => none

/-- The alert of a JSON text. -/
def ofString? (s : String) : Option Alert :=
  (Tree.ofString? s).bind ofTree?

/-- The characters of an alert as a JSON document. -/
def write (a : Alert) : List Char :=
  let text (s : String) := Json.writeText s.toList
  Json.enclose (List.zipWith Json.writeMember fieldNames
    [text (toString a.id), text a.name, text a.cluster, text a.service, text a.context.name,
      text a.metric, text a.statistic, a.period.write, text a.operator.name, a.threshold.write,
      Json.write a.extensions.toValue])

/-- The alert as a JSON text. -/
def document (a : Alert) : String :=
  String.ofList a.write

end Alert

end AlertRegistry
