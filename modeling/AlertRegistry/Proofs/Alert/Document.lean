import AlertRegistry.Proofs.Alert.Quantity
import AlertRegistry.Proofs.Extensions
import AlertRegistry.Proofs.Uuid

/-!
# Alerts read back from their documents

The document of an alert is a record of its eleven fields (`Alert.writtenAs_record`), and each field
is read from its tree: texts and names as they are, a period from its two integers
(`Period.ofTree?_tree`), the threshold from its number and unit, the extensions as the members that
they are written with (`Extensions.ofList_toList`). So an alert is read back as it is, to the last
bit (`Alert.ofString?_document_eq`), if its doubles are recovered and its extensions are not nested
too deeply for the reader.
-/

namespace AlertRegistry

open Json (Tree Value)

/-! ## The fields -/

/-- The tree of a period. -/
def Period.tree (p : Period) : Tree :=
  .record ["secs", "nanos"]
    [.numeral (Tree.integerNumeral p.seconds), .numeral (Tree.integerNumeral p.nanoseconds)]

theorem Period.writtenAs_tree (p : Period) : p.tree.WrittenAs p.write :=
  Tree.writtenAs_record (.cons (Tree.writtenAs_integer _) (.cons (Tree.writtenAs_integer _) .nil))
    ["secs", "nanos"]

/-- A natural number below a bound of at most 64 bits is read as itself. -/
theorem Json.Tree.natBelow?_integerNumeral {n bound : ℕ} (h : n < bound) (hbound : bound ≤ 2 ^ 64) :
    (numeral (integerNumeral n)).natBelow? bound = some n := by
  unfold natBelow?
  dsimp only
  rw [integer?_integerNumeral (by omega) (by omega)]
  exact if_pos h

theorem Period.ofTree?_tree (p : Period) : Period.ofTree? p.tree = some p := by
  have hseconds := Tree.natBelow?_integerNumeral p.seconds_lt le_rfl
  have hnanoseconds := Tree.natBelow?_integerNumeral
    (p.nanoseconds_lt.trans (by decide : _ < 0x100000000)) (by decide)
  have hcarried : Period.ofCarried? p.seconds p.nanoseconds = some p := by
    have hlt := p.nanoseconds_lt
    rw [Period.ofCarried?, Period.ofParts?_eq_some_iff]
    omega
  have hfields : p.tree.fields? ["secs", "nanos"] = some [some (.numeral _), some (.numeral _)] :=
    Tree.fields?_record (by decide) le_rfl
  unfold Period.ofTree?
  -- the tree is an object of two members
  show (p.tree.fields? ["secs", "nanos"]).bind _ = _
  rw [hfields, Option.bind_some]
  dsimp only [Option.bind_eq_bind]
  rw [hseconds, Option.bind_some, hnanoseconds, Option.bind_some, hcarried]

/-! ## The record -/

namespace Alert

/-- The doubles in an alert. -/
def floats (a : Alert) : List Float :=
  a.threshold.value :: a.extensions.toValue.floats

/-- How many arrays and objects are open at once in the document of an alert. -/
def depth (a : Alert) : ℕ :=
  a.extensions.toValue.depth + 1

/-- The trees of the fields, with those of the threshold and the extensions. -/
def fieldTrees (a : Alert) (threshold extensions : Tree) : List Tree :=
  let text (s : String) : Tree := .string (s.toList.map .char)
  [text (toString a.id), text a.name, text a.cluster, text a.service, text a.context.name,
    text a.metric, text a.statistic, a.period.tree, text a.operator.name, threshold, extensions]

theorem writtenAs_record {a : Alert} {threshold extensions : Tree}
    (hthreshold : threshold.WrittenAs a.threshold.write)
    (hextensions : extensions.WrittenAs (Json.write a.extensions.toValue)) :
    (Tree.record fieldNames (a.fieldTrees threshold extensions)).WrittenAs a.write := by
  have htext (s : String) := Tree.writtenAs_text s.toList
  refine Tree.writtenAs_record ?_ fieldNames
  exact .cons (htext _) (.cons (htext _) (.cons (htext _) (.cons (htext _) (.cons (htext _)
    (.cons (htext _) (.cons (htext _) (.cons a.period.writtenAs_tree (.cons (htext _)
    (.cons hthreshold (.cons hextensions .nil))))))))))

theorem ofTree?_record {a : Alert} {threshold extensions : Tree}
    (hthreshold : Quantity.ofTree? threshold = some a.threshold)
    (hextensions : extensions.object? (Json.maxDepth - 1) = some a.extensions.toList) :
    ofTree? (Tree.record fieldNames (a.fieldTrees threshold extensions)) = some a := by
  -- eleven fields, so that the reader finds each in its place
  have hfields : (Tree.record fieldNames (a.fieldTrees threshold extensions)).fields? fieldNames
      = some [some _, some _, some _, some _, some _, some _, some _, some _, some _, some _,
        some _] :=
    Tree.fields?_record (by decide) le_rfl
  unfold ofTree?
  rw [hfields]
  dsimp only [Option.bind_eq_bind, Option.bind_some]
  simp only [Option.bind_some, Tree.text?_string, Tree.caseName?_string, Uuid.ofString?_toString,
    Context.ofName?_name, Operator.ofName?_name, Period.ofTree?_tree, hthreshold, hextensions,
    Option.map_some, Extensions.ofList_toList, Option.pure_def]

/-- An alert is read back from its document as it is: its texts, names, period and unit, the bits of
its doubles, and its extensions member by member, whichever values they are. -/
theorem ofString?_document_eq {a : Alert} (hvalue : a.extensions.toValue.WellFormed)
    (hfloats : ∀ x ∈ a.floats, Json.Recovers x) (hdepth : a.depth ≤ Json.maxDepth) :
    ofString? a.document = some a := by
  obtain ⟨b, hb, hfloat⟩ :=
    Option.bind_eq_some_iff.1 (Json.recovers_iff.1 (hfloats _ List.mem_cons_self))
  -- the object of the alert itself is open around its extensions
  obtain ⟨extensions, hwritten, hread⟩ := hvalue.exists_tree (d := Json.maxDepth - 1)
    (Nat.le_sub_of_add_le hdepth) fun x hx => hfloats x (List.mem_cons_of_mem _ hx)
  have hthreshold := Quantity.ofTree?_tree (q := a.threshold)
    (Decimal.Style.integer?_numeral Json.numberStyle b) hfloat
  unfold ofString? document
  rw [(writtenAs_record (Quantity.writtenAs_tree hb) hwritten).ofString?, Option.bind_some]
  exact ofTree?_record hthreshold (Tree.object?_of_value? hread)

/-- An alert with an empty unit, and with extensions of every kind inside one another. -/
def annotated : Alert where
  id := Uuid.ofRandom 0
  name := "\x22load\x22 \\ \x00"
  cluster := "main"
  service := ""
  context := .cluster
  metric := "μ🙂"
  statistic := "p99"
  period := { seconds := 0xFFFFFFFFFFFFFFFF, nanoseconds := 999999999 }
  operator := .lessThanOrEqualTo
  threshold := { value := -0.0, unit := some "" }
  extensions := {
    toList := [("", .array [.integer 1, .number 1.0, .null, .array [], .object []]),
      ("limits", .object [("max", .integer 0xFFFFFFFFFFFFFFFF), ("min", .number 5e-324)]),
      ("watched", .bool true)]
    sorted := by decide }

theorem wellFormed_annotated : annotated.extensions.toValue.WellFormed := by
  refine .object (by decide) ?_
  intro m hm
  simp only [annotated, List.mem_cons, List.not_mem_nil, or_false] at hm
  rcases hm with rfl | rfl | rfl
  · refine .array ?_
    simp only [List.mem_cons, List.not_mem_nil, or_false, forall_eq_or_imp, forall_eq]
    exact ⟨.integer (by decide) (by decide), .number _, .null, .array (List.forall_mem_nil _),
      .object .nil (List.forall_mem_nil _)⟩
  · refine .object (by decide) ?_
    simp only [List.mem_cons, List.not_mem_nil, or_false, forall_eq_or_imp, forall_eq]
    exact ⟨.integer (by decide) (by decide), .number _⟩
  · exact .bool true

/-- This alert is read back as it is, with the sign of its zero and its empty unit. -/
theorem annotated_read_back : annotated.extensions.toValue.WellFormed
    ∧ (∀ x ∈ annotated.floats, Json.Recovers x) ∧ annotated.depth ≤ Json.maxDepth
    ∧ ofString? annotated.document = some annotated := by
  have hfloats : ∀ x ∈ annotated.floats, Json.Recovers x := by decide +kernel
  have hdepth : annotated.depth ≤ Json.maxDepth := by decide
  exact ⟨wellFormed_annotated, hfloats, hdepth,
    ofString?_document_eq wellFormed_annotated hfloats hdepth⟩

end Alert

end AlertRegistry
