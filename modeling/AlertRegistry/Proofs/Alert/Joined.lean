import AlertRegistry.Proofs.Schema

/-!
# Alerts beside their side-records

Pages of alerts are read from a join in which the partner of an alert is looked up by its key. In
`matchedSource` the partners are all side-records whose key equals that of the alert, where null
equals nothing. Where the keys of side-records are distinct and not null, and so on every database
that meets its schema, both are one source (`joinedSource_eq`).
-/

namespace AlertRegistry

open Table (keyOf keys)

/-- The cells are equal in the sense of statements: null equals nothing. -/
def Cell.equates (c d : Cell) : Bool :=
  c ≠ .null && c = d

namespace AlertRow

/-- The rows of the side-records. -/
def sideSource (db : Database) : Source :=
  .ofTable SideRecord.qualifiedName "n.rowid" db.sides

/-- The alerts with all side-records beside them that have their key. -/
def matchedSource (db : Database) : Source :=
  (source db).leftJoin (sideSource db).columns fun row =>
    (sideSource db).rows.filter fun side =>
      (side (SideRecord.qualifiedName .alertId)).equates (row (qualifiedName .id))

variable {db : Database}

/-- The side-records that a row is matched with are the one that is looked up for it. -/
theorem filter_sides (hnd : (keys db.sides.tuples).Nodup)
    (hkeys : ∀ s ∈ db.sides.tuples, keyOf s ≠ .null) (row : Tuple String) :
    ((sideSource db).rows.filter fun side =>
        (side (SideRecord.qualifiedName .alertId)).equates (row (qualifiedName .id)))
      = (partner? db row).toList := by
  have hfilter : db.sides.tuples.filter
      (fun s => (s .alertId).equates (row (qualifiedName .id)))
      = db.sides.tuples.filter fun s => keyOf s = row (qualifiedName .id) := by
    refine List.filter_congr fun s hs => ?_
    have hkey : s .alertId ≠ .null := hkeys s hs
    simp only [Cell.equates, hkey, ne_eq, not_false_eq_true, decide_true, Bool.true_and]
    rfl
  show (db.sides.tuples.map (Tuple.named SideRecord.qualifiedName)).filter _ = _
  rw [List.filter_map]
  simp only [Function.comp_def, SideRecord.named_qualifiedName]
  rw [hfilter, Keyed.filter_eq_find? hnd]
  unfold partner? Table.find?
  cases db.sides.tuples.find? fun s => keyOf s = row (qualifiedName .id) <;> rfl

/-- Looked up or matched, the partners of alerts are the same. -/
theorem joinedSource_eq (hnd : (keys db.sides.tuples).Nodup)
    (hkeys : ∀ s ∈ db.sides.tuples, keyOf s ≠ .null) : joinedSource db = matchedSource db := by
  unfold joinedSource matchedSource
  simp only [filter_sides hnd hkeys]
  rfl

end AlertRow

/-- On a database that meets its schema pages of alerts are read from the matched join. -/
theorem Database.MeetsSchema.joinedSource_eq {db : Database} (h : db.MeetsSchema) :
    AlertRow.joinedSource db = AlertRow.matchedSource db := by
  refine AlertRow.joinedSource_eq h.sides.nodup fun s hs hnull => ?_
  obtain ⟨id, hid⟩ := (h.sides.typed s hs).text (c := SideColumn.alertId) rfl rfl
  exact Cell.noConfusion (hid.symm.trans hnull)

end AlertRegistry
