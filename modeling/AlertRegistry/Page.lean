import AlertRegistry.Text.Hex

/-!
# Pages

A query gives the matching rows page by page: a limit `n` cuts them into pages of `n` rows, and an
offset selects the page on which the row at that place is. A limit of 0 counts as 1. The state of a
page is told by the newest stamp on it, in hexadecimal (`etagOfStamps`).
-/

namespace AlertRegistry

/-- One page of the matching rows. -/
structure Page (ρ : Type) where
  /-- The rows on the page. -/
  rows : List ρ
  /-- The number of matching rows on all pages. -/
  total : Nat
deriving Repr

/-- The number of the page that an offset selects. -/
def pageIndex (offset : Option UInt32) (limit : UInt32) : UInt32 :=
  match offset with
  | none => 0
  | some o => o / max limit 1

/-- The number of rows before the selected page. -/
def rowsBefore (offset : Option UInt32) (limit : UInt32) : Nat :=
  (pageIndex offset limit).toNat * (max limit 1).toNat

/-- The selected page of a list. -/
def slice {ρ : Type} (offset : Option UInt32) (limit : UInt32) (l : List ρ) : List ρ :=
  (l.drop (rowsBefore offset limit)).take (max limit 1).toNat

/-- The newest of pairs of stamps, at least 0. -/
def newestStamp (stamps : List (Int × Int)) : Int :=
  stamps.foldl (fun newest s => max newest (max s.1 s.2)) 0

/-- The hexadecimal text of the newest stamp. -/
def etagOfStamps (stamps : List (Int × Int)) : String :=
  String.ofList (Text.hexOfNat (newestStamp stamps).toNat)

end AlertRegistry
