import AlertRegistry.Period.Designator
import AlertRegistry.Proofs.Text.Digits

/-!
# Period texts read back

The seconds form of a period denotes that period (`ofString_toString`). In the seconds form no
component stands before the run of seconds, so the readers of weeks, days, hours and minutes leave
the text as it is; the fraction loses its zeros at the end when it is written and regains them when
it is read (`nanoseconds_fractionDigits`).

The seconds are checked after every product and every sum. No part of them exceeds their sum, so
these checks refuse what the check of the exact number refuses (`seconds?_eq`).
-/

namespace AlertRegistry.Period

open Text

/-! ## The fraction -/

theorem fractionDigits_eq (n : Nat) : fractionDigits n = stripZeros (padLeft 9 (digitsOfNat n)) :=
  rfl

theorem length_padLeft_digitsOfNat {n : Nat} (h : n < 10 ^ 9) :
    (padLeft 9 (digitsOfNat n)).length = 9 :=
  length_padLeft (length_digitsOfNat_le (by decide) h)

theorem isDigit_of_mem_fractionDigits {n : Nat} : ∀ c ∈ fractionDigits n, c.isDigit = true := by
  intro c hc
  rw [fractionDigits_eq] at hc
  have hmem := mem_of_mem_stripZeros hc
  rw [padLeft, List.mem_append] at hmem
  rcases hmem with h | h
  · exact isDigit_of_mem_zeros c h
  · exact isDigit_of_mem_digitsOfNat c h

theorem length_fractionDigits_le {n : Nat} (h : n < 10 ^ 9) : (fractionDigits n).length ≤ 9 := by
  rw [fractionDigits_eq]
  exact (length_stripZeros_le _).trans_eq (length_padLeft_digitsOfNat h)

/-- The fraction as it is written denotes the nanoseconds that it was written for. -/
theorem nanoseconds_fractionDigits {n : Nat} (h : n < 10 ^ 9) :
    natOfDigits (padRight 9 (fractionDigits n)) = n := by
  have hlen := length_padLeft_digitsOfNat h
  have hstrip := natOfDigits_stripZeros (padLeft 9 (digitsOfNat n))
  rw [hlen, natOfDigits_padLeft, natOfDigits_digitsOfNat] at hstrip
  rw [padRight, natOfDigits_append_zeros, fractionDigits_eq]
  exact hstrip

/-- Only a whole number of seconds has no digit in its fraction. -/
theorem fractionDigits_ne_nil {n : Nat} (h : n < 10 ^ 9) (hn : n ≠ 0) : fractionDigits n ≠ [] := by
  intro hnil
  have hval := nanoseconds_fractionDigits h
  rw [hnil, padRight, List.nil_append, natOfDigits_replicate_zero] at hval
  exact hn hval.symm

/-! ## The whole seconds -/

theorem word?_eq_some_iff {m n : Nat} : word? m = some n ↔ m = n ∧ n < 0x10000000000000000 := by
  unfold word?
  split
  · next h =>
    rw [Option.some.injEq]
    exact ⟨fun e => ⟨e, e ▸ h⟩, And.left⟩
  · next h => exact iff_of_false nofun fun hn => h (hn.1 ▸ hn.2)

theorem word?_eq_none {n : Nat} (h : 0x10000000000000000 ≤ n) : word? n = none :=
  if_neg (Nat.not_lt.2 h)

/-- A number that does not fit has a product that does not fit. -/
theorem scaled?_eq {unit : Nat} (hunit : 0 < unit) (ds : Option (List Char)) :
    scaled? unit ds = word? (unit * amount ds) := by
  cases ds with
  | none => rfl
  | some ds =>
    show (word? (natOfDigits ds)).bind (fun n => word? (n * unit)) = word? (unit * natOfDigits ds)
    rw [Nat.mul_comm unit]
    rcases Nat.lt_or_ge (natOfDigits ds) 0x10000000000000000 with h | h
    · rw [word?_eq_some_iff.2 ⟨rfl, h⟩, Option.bind_some]
    · rw [word?_eq_none h, Option.bind_none,
        word?_eq_none (h.trans (Nat.le_mul_of_pos_right _ hunit))]

/-- No sum on the way exceeds the sum at the end. -/
theorem foldlM_word? {total : Nat} {parts : List Nat} (h : total < 0x10000000000000000) :
    parts.foldlM (fun total part => word? (total + part)) total = word? (total + parts.sum) := by
  induction parts generalizing total with
  | nil => exact (word?_eq_some_iff.2 ⟨rfl, h⟩).symm
  | cons part parts ih =>
    rw [List.foldlM_cons, List.sum_cons]
    rcases Nat.lt_or_ge (total + part) 0x10000000000000000 with hpart | hpart
    · rw [word?_eq_some_iff.2 ⟨rfl, hpart⟩]
      show parts.foldlM _ (total + part) = _
      rw [ih hpart, Nat.add_assoc]
    · rw [word?_eq_none hpart, word?_eq_none (by omega)]
      rfl

/-- No part exceeds the sum. -/
theorem mapM_word? (parts : List Nat) : parts.mapM word? = some parts
    ∨ parts.mapM word? = none ∧ 0x10000000000000000 ≤ parts.sum := by
  induction parts with
  | nil => exact .inl rfl
  | cons part parts ih =>
    rw [List.mapM_cons, List.sum_cons]
    rcases Nat.lt_or_ge part 0x10000000000000000 with hpart | hpart
    · rw [word?_eq_some_iff.2 ⟨rfl, hpart⟩]
      rcases ih with h | ⟨h, hsum⟩
      · rw [h]
        exact .inl rfl
      · rw [h]
        exact .inr ⟨rfl, by omega⟩
    · rw [word?_eq_none hpart]
      exact .inr ⟨rfl, by omega⟩

theorem Components.sum_units (c : Components) :
    (c.units.map fun u => u.1 * amount u.2).sum = c.totalSeconds := by
  simp only [units, totalSeconds, List.map_cons, List.map_nil, List.sum_cons, List.sum_nil]
  omega

/-- The checks on the way refuse what a check at the end refuses. -/
theorem Components.seconds?_eq (c : Components) : c.seconds? = word? c.totalSeconds := by
  have hscaled : (c.units.mapM fun u => scaled? u.1 u.2)
      = (c.units.map fun u => u.1 * amount u.2).mapM word? := by
    rw [List.mapM_map]
    simp [units, scaled?_eq]
  unfold seconds?
  rw [hscaled, ← c.sum_units]
  rcases mapM_word? (c.units.map fun u => u.1 * amount u.2) with h | ⟨h, hsum⟩
  · rw [h]
    show List.foldlM _ 0 _ = _
    rw [foldlM_word? (by decide), Nat.zero_add]
  · rw [h, word?_eq_none hsum]
    rfl

/-- Reading is splitting into components and checking what they amount to. -/
theorem read?_eq_some_iff {cs : List Char} {p : Period} :
    read? cs = some p ↔ ∃ c, readComponents cs = some c ∧ p.seconds = c.totalSeconds
      ∧ p.nanoseconds = c.nanoseconds := by
  unfold read?
  simp only [Option.bind_eq_bind, Option.bind_eq_some_iff, Components.seconds?_eq,
    word?_eq_some_iff, ofParts?_eq_some_iff]
  constructor
  · rintro ⟨c, hc, n, ⟨rfl, -⟩, hs, hn⟩
    exact ⟨c, hc, hs, hn⟩
  · rintro ⟨c, hc, hs, hn⟩
    exact ⟨c, hc, _, ⟨rfl, hs ▸ p.seconds_lt⟩, hs, hn⟩

/-! ## The components -/

/-- A run of digits before another character is no component of the designator. -/
theorem takeComponent_of_ne {designator c : Char} {ds rest : List Char}
    (hd : ∀ x ∈ ds, x.isDigit = true) (hc : c.isDigit = false) (hne : c ≠ designator) :
    takeComponent designator (ds ++ c :: rest) = (none, ds ++ c :: rest) := by
  rw [takeComponent, takeWhile_isDigit_append hd (endsRun_cons hc),
    dropWhile_isDigit_append hd (endsRun_cons hc)]
  cases ds with
  | nil => rfl
  | cons d ds => simp [hne]

theorem takeSeconds_whole {ds : List Char} (hd : ∀ x ∈ ds, x.isDigit = true) (hne : ds ≠ []) :
    takeSeconds (ds ++ ['S']) = (some (ds, []), []) := by
  have hend : EndsRun ['S'] := endsRun_cons rfl
  rw [takeSeconds, takeWhile_isDigit_append hd hend, dropWhile_isDigit_append hd hend]
  cases ds with
  | nil => exact absurd rfl hne
  | cons d ds => rfl

theorem takeSeconds_fraction {ds fs : List Char} (hd : ∀ x ∈ ds, x.isDigit = true)
    (hne : ds ≠ []) (hf : ∀ x ∈ fs, x.isDigit = true) (hfne : fs ≠ []) (hlen : fs.length ≤ 9) :
    takeSeconds (ds ++ '.' :: (fs ++ ['S'])) = (some (ds, fs), []) := by
  have hpoint : EndsRun ('.' :: (fs ++ ['S'])) := endsRun_cons rfl
  have hend : EndsRun ['S'] := endsRun_cons rfl
  rw [takeSeconds, takeWhile_isDigit_append hd hpoint, dropWhile_isDigit_append hd hpoint]
  cases ds with
  | nil => exact absurd rfl hne
  | cons d ds =>
    cases fs with
    | nil => exact absurd rfl hfne
    | cons f fs =>
      have hlt : fs.length < 9 := by
        rw [List.length_cons] at hlen
        omega
      simp only [takeWhile_isDigit_append hf hend, dropWhile_isDigit_append hf hend, if_pos hlt]

/-- A run of seconds, with or without a fraction, is all that the reader finds after the `T`. -/
theorem readTime_seconds {ds fs tail : List Char} (hd : ∀ x ∈ ds, x.isDigit = true)
    (htail : ∃ c rest, tail = c :: rest ∧ c.isDigit = false ∧ c ≠ 'H' ∧ c ≠ 'M')
    (hs : takeSeconds (ds ++ tail) = (some (ds, fs), [])) :
    readTime {} (ds ++ tail) = some { seconds := some ds, fraction := fs } := by
  obtain ⟨c, rest, rfl, hc, hH, hM⟩ := htail
  simp only [readTime, takeComponent_of_ne hd hc hH, takeComponent_of_ne hd hc hM, hs]
  rfl

theorem readComponents_seconds {cs : List Char} :
    readComponents ('P' :: 'T' :: cs) = readTime {} cs := by
  -- there is nothing before the `T`, so neither weeks nor days are found
  have hnone : ∀ designator, 'T' ≠ designator →
      takeComponent designator ([] ++ 'T' :: cs) = (none, [] ++ 'T' :: cs) :=
    fun _ hne => takeComponent_of_ne nofun rfl hne
  have hW := hnone 'W' (by decide)
  have hD := hnone 'D' (by decide)
  rw [List.nil_append] at hW hD
  simp only [readComponents, hW, hD]

/-! ## The round trip -/

/-- The components of the seconds form are its seconds and its fraction. -/
theorem readComponents_toChars (p : Period) :
    ∃ fs, readComponents p.toChars
        = some { seconds := some (digitsOfNat p.seconds), fraction := fs }
      ∧ natOfDigits (padRight 9 fs) = p.nanoseconds := by
  have hd := isDigit_of_mem_digitsOfNat (n := p.seconds)
  have hne := digitsOfNat_ne_nil p.seconds
  have hlt := p.nanoseconds_lt
  by_cases hn : p.nanoseconds = 0
  · refine ⟨[], ?_, ?_⟩
    · have hchars : p.toChars = 'P' :: 'T' :: (digitsOfNat p.seconds ++ ['S']) := by
        simp [toChars, hn]
      rw [hchars, readComponents_seconds]
      exact readTime_seconds hd ⟨'S', [], rfl, rfl, by decide, by decide⟩ (takeSeconds_whole hd hne)
    · rw [hn, padRight, List.nil_append, natOfDigits_replicate_zero]
  · refine ⟨fractionDigits p.nanoseconds, ?_, nanoseconds_fractionDigits hlt⟩
    have hchars : p.toChars
        = 'P' :: 'T' ::
          (digitsOfNat p.seconds ++ '.' :: (fractionDigits p.nanoseconds ++ ['S'])) := by
      simp [toChars, hn]
    rw [hchars, readComponents_seconds]
    exact readTime_seconds hd ⟨'.', _, rfl, rfl, by decide, by decide⟩
      (takeSeconds_fraction hd hne isDigit_of_mem_fractionDigits
        (fractionDigits_ne_nil hlt hn) (length_fractionDigits_le hlt))

theorem read?_toChars (p : Period) : read? p.toChars = some p := by
  obtain ⟨fs, hread, hfs⟩ := readComponents_toChars p
  refine read?_eq_some_iff.2 ⟨_, hread, ?_, hfs.symm⟩
  simp [Components.totalSeconds, amount]

/-- A period is denoted by its text. -/
@[simp] theorem ofString_toString (p : Period) : ofString (toString p) = .ok p := by
  show ofString (String.ofList p.toChars) = .ok p
  rw [ofString, String.toList_ofList, read?_toChars]

end AlertRegistry.Period
