import AlertRegistry.Decimal.Style
import AlertRegistry.Proofs.Decimal.Numeral
import AlertRegistry.Proofs.Decimal.Shortest

/-!
# The numerals that are written

`Style.writeBinary` writes a numeral, `Style.numeral` (`chars_numeral`). It is well formed
(`wellFormed_numeral`) and stands for the shortest decimal of the double: for the integer of its
digits and its power of ten, or for ten times an integer and a tenth, where an integer is written
with `.0` after it (`written_numeralOf`).
-/

namespace AlertRegistry.Decimal

namespace Numeral

/-- The point and what stands after it. -/
def fractionChars (n : Numeral) : List Char :=
  match n.fraction with
  | none => []
  | some ds => '.' :: ds

/-- The exponent with its sign. -/
def exponentChars (n : Numeral) : List Char :=
  match n.exponent with
  | none => []
  | some (negative, ds) => 'e' :: (if negative then '-' else '+') :: ds

/-- The characters of a numeral after its sign. -/
def sizeChars (n : Numeral) : List Char :=
  n.whole ++ (n.fractionChars ++ n.exponentChars)

/-- The characters of a numeral. -/
def chars (n : Numeral) : List Char :=
  (if n.negative then ['-'] else []) ++ n.sizeChars

/-- The digits are digits, and there is no zero on the left of another digit. -/
structure WellFormed (n : Numeral) : Prop where
  /-- The digits before the point are digits. -/
  whole : ∀ c ∈ n.whole, c.isDigit = true
  /-- There is a digit before the point. -/
  whole_ne_nil : n.whole ≠ []
  /-- Before the point a zero stands alone. -/
  whole_head : n.whole.head? = some '0' → n.whole.length = 1
  /-- After a point there are digits. -/
  fraction : ∀ ds ∈ n.fraction, ds ≠ [] ∧ ∀ c ∈ ds, c.isDigit = true
  /-- In an exponent there are digits. -/
  exponent : ∀ e ∈ n.exponent, e.2 ≠ [] ∧ ∀ c ∈ e.2, c.isDigit = true

end Numeral

namespace Style

/-! ## The numeral of a decimal -/

/-- The numeral of the positional form. -/
def positionalNumeral (negative : Bool) (d : Digits) : Numeral :=
  if d.place < 0 then
    { negative, whole := ['0']
      fraction := some (List.replicate ((-d.place).toNat - 1) '0' ++ d.digits), exponent := none }
  else
    let rest := d.digits.drop (d.place.toNat + 1)
    { negative, whole := Text.padRight (d.place.toNat + 1) (d.digits.take (d.place.toNat + 1))
      fraction := some (if rest.isEmpty then ['0'] else rest), exponent := none }

/-- The numeral of the form with an exponent. -/
def scientificNumeral (negative : Bool) (d : Digits) : Numeral where
  negative := negative
  whole := d.digits.take 1
  fraction := if (d.digits.drop 1).isEmpty then none else some (d.digits.drop 1)
  exponent := some (decide (d.place < 0), Text.digitsOfNat d.place.natAbs)

/-- The numeral that is written for a decimal with a sign. -/
def numeralOf (style : Style) (negative : Bool) (d : Digits) : Numeral :=
  if style.minPlace ≤ d.place ∧ d.place ≤ style.maxPlace then positionalNumeral negative d
  else scientificNumeral negative d

/-- The numeral that is written for a finite double. -/
def numeral (style : Style) (b : Binary) : Numeral :=
  if b.mantissa = 0 then
    { negative := b.negative, whole := ['0'], fraction := some ['0'], exponent := none }
  else style.numeralOf b.negative (shortest b)

@[simp] theorem negative_numeral (style : Style) (b : Binary) :
    (style.numeral b).negative = b.negative := by
  unfold numeral numeralOf positionalNumeral scientificNumeral
  split
  · rfl
  · split
    · split <;> rfl
    · rfl

/-- A double is not written as an integer. -/
theorem integer?_numeral (style : Style) (b : Binary) : (style.numeral b).integer? = none := by
  unfold numeral numeralOf positionalNumeral scientificNumeral Numeral.integer?
  split
  · exact if_neg fun h => nomatch h.1
  · split
    · split <;> exact if_neg fun h => nomatch h.1
    · exact if_neg fun h => nomatch h.2

theorem chars_positionalNumeral (negative : Bool) (d : Digits) :
    (positionalNumeral negative d).chars = (if negative then ['-'] else []) ++ positional d := by
  unfold positionalNumeral positional Numeral.chars Numeral.sizeChars Numeral.fractionChars
    Numeral.exponentChars
  split
  · simp only [List.append_nil, List.cons_append, List.nil_append]
  · simp only [List.append_nil, List.append_assoc, Text.padRight]

theorem chars_scientificNumeral (negative : Bool) (d : Digits) :
    (scientificNumeral negative d).chars = (if negative then ['-'] else []) ++ scientific d := by
  unfold scientificNumeral scientific Numeral.chars Numeral.sizeChars Numeral.fractionChars
    Numeral.exponentChars
  dsimp only
  by_cases hone : (d.digits.drop 1).isEmpty = true
  · simp only [hone, if_true, List.append_assoc, decide_eq_true_eq]
  · simp only [hone, Bool.false_eq_true, if_false, List.append_assoc, decide_eq_true_eq]

/-- A finite double is written as its numeral. -/
theorem chars_numeral (style : Style) (b : Binary) :
    (style.numeral b).chars = style.writeBinary b := by
  unfold numeral writeBinary
  split
  · rfl
  · unfold numeralOf write
    split
    · exact chars_positionalNumeral ..
    · exact chars_scientificNumeral ..

/-! ## Well-formedness -/

section

variable {d : Digits} (hd : d.WellFormed) (negative : Bool)

include hd

theorem wellFormed_positionalNumeral : (positionalNumeral negative d).WellFormed := by
  unfold positionalNumeral
  split
  · refine ⟨Text.isDigit_of_mem_zeros (k := 1), List.cons_ne_nil _ _, fun _ => rfl, ?_, ?_⟩
    · intro ds hds
      cases hds
      refine ⟨List.append_ne_nil_of_right_ne_nil _ hd.ne_nil, fun c hc => ?_⟩
      rcases List.mem_append.1 hc with hc | hc
      · exact Text.isDigit_of_mem_zeros c hc
      · exact hd.isDigit c hc
    · intro e he
      cases he
  · -- the first digit stands before the point, and it is not zero
    obtain ⟨c₀, cs, hcs⟩ := List.exists_cons_of_ne_nil hd.ne_nil
    have hhead : c₀ ≠ '0' := by
      intro h
      apply hd.head_ne
      rw [hcs, h]
      rfl
    dsimp only
    refine ⟨?_, ?_, ?_, ?_, ?_⟩
    · intro c hc
      rcases List.mem_append.1 hc with hc | hc
      · exact hd.isDigit c (List.mem_of_mem_take hc)
      · exact Text.isDigit_of_mem_zeros c hc
    · rw [hcs]
      exact List.cons_ne_nil _ _
    · intro h
      rw [hcs] at h
      exact absurd (Option.some.inj h) hhead
    · intro ds hds
      cases hds
      split
      · exact ⟨List.cons_ne_nil _ _, Text.isDigit_of_mem_zeros (k := 1)⟩
      · next hne =>
        exact ⟨fun h => hne (List.isEmpty_iff.2 h), fun c hc =>
          hd.isDigit c (List.mem_of_mem_drop hc)⟩
    · intro e he
      cases he

theorem wellFormed_scientificNumeral : (scientificNumeral negative d).WellFormed := by
  obtain ⟨c₀, cs, hcs⟩ := List.exists_cons_of_ne_nil hd.ne_nil
  unfold scientificNumeral
  refine ⟨fun c hc => hd.isDigit c (List.mem_of_mem_take hc), ?_, ?_, ?_, ?_⟩
  · rw [hcs]
    exact List.cons_ne_nil _ _
  · intro _
    rw [hcs]
    rfl
  · intro ds hds
    dsimp only at hds
    split at hds <;> cases hds
    next hne =>
    exact ⟨fun h => hne (List.isEmpty_iff.2 h), fun c hc => hd.isDigit c (List.mem_of_mem_drop hc)⟩
  · intro e he
    cases he
    exact ⟨Text.digitsOfNat_ne_nil _, Text.isDigit_of_mem_digitsOfNat⟩

end

/-! ## What the numeral stands for -/

/-- The integer and the power of ten that the numeral of a decimal stands for. -/
def parts (style : Style) (d : Digits) : ℕ × ℤ :=
  if (style.minPlace ≤ d.place ∧ d.place ≤ style.maxPlace) ∧ d.digits.length ≤ d.place + 1 then
    (Text.natOfDigits d.digits * 10 ^ (d.place.toNat + 2 - d.digits.length), -1)
  else (Text.natOfDigits d.digits, d.power)

section

variable (negative : Bool) {d : Digits}

/-- Before the first digit, zeros do not count. -/
theorem written_of_neg (hneg : d.place < 0) :
    (positionalNumeral negative d).written = (Text.natOfDigits d.digits, d.power) := by
  have hvalue : Text.natOfDigits ('0' :: (List.replicate ((-d.place).toNat - 1) '0' ++ d.digits))
      = Text.natOfDigits d.digits :=
    (Text.natOfDigits_zeros_append 1 _).trans (Text.natOfDigits_zeros_append _ _)
  unfold positionalNumeral Numeral.written Numeral.writtenExponent Digits.power
  rw [if_pos hneg]
  dsimp only [Option.getD_some]
  rw [List.singleton_append, hvalue, List.length_append, List.length_replicate]
  congr 1
  omega

/-- An integer has zeros up to the point, and one after it. -/
theorem written_of_length_le (hpos : 0 ≤ d.place) (hlen : d.digits.length ≤ d.place + 1) :
    (positionalNumeral negative d).written
      = (Text.natOfDigits d.digits * 10 ^ (d.place.toNat + 2 - d.digits.length), -1) := by
  have htake : d.digits.take (d.place.toNat + 1) = d.digits := List.take_of_length_le (by omega)
  have hdrop : d.digits.drop (d.place.toNat + 1) = [] := List.drop_eq_nil_of_le (by omega)
  -- the zero after the point continues those before it
  have hzeros : Text.padRight (d.place.toNat + 1) d.digits ++ ['0']
      = d.digits ++ List.replicate (d.place.toNat + 2 - d.digits.length) '0' := by
    unfold Text.padRight
    rw [List.append_assoc, ← List.replicate_succ']
    congr 2
    omega
  unfold positionalNumeral Numeral.written Numeral.writtenExponent
  rw [if_neg (not_lt.2 hpos)]
  dsimp only
  rw [htake, hdrop]
  show (Text.natOfDigits (_ ++ ['0']), _) = _
  rw [hzeros, Text.natOfDigits_append_zeros]
  rfl

/-- The point stands among the digits. -/
theorem written_of_lt_length (hpos : 0 ≤ d.place) (hlen : d.place + 1 < d.digits.length) :
    (positionalNumeral negative d).written = (Text.natOfDigits d.digits, d.power) := by
  have htake : Text.padRight (d.place.toNat + 1) (d.digits.take (d.place.toNat + 1))
      = d.digits.take (d.place.toNat + 1) := by
    unfold Text.padRight
    rw [List.length_take_of_le (by omega), Nat.sub_self, List.replicate_zero, List.append_nil]
  have hdrop : (d.digits.drop (d.place.toNat + 1)).isEmpty = false := by
    rw [List.isEmpty_eq_false_iff, ← List.length_pos_iff, List.length_drop]
    omega
  unfold positionalNumeral Numeral.written Numeral.writtenExponent Digits.power
  rw [if_neg (not_lt.2 hpos)]
  dsimp only [Option.getD_some]
  rw [htake, hdrop, if_neg Bool.false_ne_true, List.take_append_drop, List.length_drop]
  congr 1
  omega

theorem writtenExponent_scientificNumeral :
    (scientificNumeral negative d).writtenExponent = d.place := by
  unfold scientificNumeral Numeral.writtenExponent
  simp only [Text.natOfDigits_digitsOfNat, decide_eq_true_eq]
  split <;> omega

/-- An exponent is the place of the first digit. -/
theorem natAbs_writtenExponent_le (style : Style) (b : Binary) :
    (style.numeral b).writtenExponent.natAbs ≤ (shortest b).place.natAbs := by
  unfold numeral
  split
  · exact Nat.zero_le _
  · unfold numeralOf
    split
    · have hnone : (positionalNumeral b.negative (shortest b)).exponent = none := by
        unfold positionalNumeral
        split <;> rfl
      unfold Numeral.writtenExponent
      rw [hnone]
      exact Nat.zero_le _
    · rw [writtenExponent_scientificNumeral]

theorem written_scientificNumeral (hne : d.digits ≠ []) :
    (scientificNumeral negative d).written = (Text.natOfDigits d.digits, d.power) := by
  obtain ⟨c, cs, hcs⟩ := List.exists_cons_of_ne_nil hne
  -- whether or not there is a point, all digits are written, and those after it are counted
  have hdigits : [c] ++ (if cs.isEmpty then none else some cs).getD [] = d.digits := by
    rw [hcs]
    cases cs <;> rfl
  have hlength : ((if cs.isEmpty then none else some cs : Option (List Char)).getD []).length
      = cs.length := by
    cases cs <;> rfl
  unfold Numeral.written
  rw [writtenExponent_scientificNumeral]
  unfold scientificNumeral Digits.power
  dsimp only
  rw [hcs] at hdigits ⊢
  show (Text.natOfDigits ([c] ++ (if cs.isEmpty then none else some cs).getD []), d.place
    - ((if cs.isEmpty then none else some cs : Option (List Char)).getD []).length) = _
  rw [hdigits, hlength, List.length_cons]
  congr 1
  push_cast
  ring

/-- The numeral of a decimal stands for its parts. -/
theorem written_numeralOf (style : Style) (hne : d.digits ≠ []) :
    (style.numeralOf negative d).written = style.parts d := by
  have hlen := List.length_pos_iff.2 hne
  unfold numeralOf parts
  by_cases hstyle : style.minPlace ≤ d.place ∧ d.place ≤ style.maxPlace
  · rw [if_pos hstyle]
    by_cases hfits : d.digits.length ≤ d.place + 1
    · rw [if_pos ⟨hstyle, hfits⟩, written_of_length_le negative (by omega) hfits]
    · rw [if_neg fun h => hfits h.2]
      rcases lt_or_ge d.place 0 with hneg | hpos
      · exact written_of_neg negative hneg
      · exact written_of_lt_length negative hpos (not_le.1 hfits)
  · rw [if_neg hstyle, if_neg fun h => hstyle h.1]
    exact written_scientificNumeral negative hne

/-- Zero is written as no tenths. -/
theorem written_numeral_zero (style : Style) {b : Binary} (hm : b.mantissa = 0) :
    (style.numeral b).written = (0, -1) := by
  unfold numeral
  rw [if_pos hm]
  rfl

/-- The numeral of a positive double stands for the parts of its shortest decimal. -/
theorem written_numeral (style : Style) {b : Binary} (hm : 0 < b.mantissa)
    (hne : (shortest b).digits ≠ []) : (style.numeral b).written = style.parts (shortest b) := by
  unfold numeral
  rw [if_neg hm.ne']
  exact written_numeralOf b.negative style hne

/-- The parts of a decimal are its value. -/
theorem parts_value (style : Style) (hne : d.digits ≠ []) :
    ((style.parts d).1 * 10 ^ (style.parts d).2 : ℚ) = d.value := by
  have hlen := List.length_pos_iff.2 hne
  unfold parts Digits.value
  split
  · next h =>
    dsimp only
    unfold Digits.power
    rw [show d.place + 1 - (d.digits.length : ℤ)
      = ((d.place.toNat + 2 - d.digits.length : ℕ) : ℤ) + -1 by omega, zpow_add₀ (by norm_num),
      zpow_natCast]
    push_cast
    ring
  · rfl

end

/-- What is written for a double is well formed. -/
theorem wellFormed_numeral (style : Style) {b : Binary}
    (hd : 0 < b.mantissa → (shortest b).WellFormed) : (style.numeral b).WellFormed := by
  have hzero : ∀ c ∈ ['0'], c.isDigit = true := Text.isDigit_of_mem_zeros (k := 1)
  unfold numeral
  split
  · refine ⟨hzero, List.cons_ne_nil _ _, fun _ => rfl, ?_, ?_⟩
    · intro ds hds
      cases hds
      exact ⟨List.cons_ne_nil _ _, hzero⟩
    · intro e he
      cases he
  · next hm =>
    have hd := hd (Nat.pos_of_ne_zero hm)
    unfold numeralOf
    split
    · exact wellFormed_positionalNumeral hd b.negative
    · exact wellFormed_scientificNumeral hd b.negative

end Style

end AlertRegistry.Decimal
