import AlertRegistry.Proofs.Period.Grammar

/-!
# The seconds form of a period

Among the texts of a period there is one in the seconds form, in which every zero counts
(`IsSecondsForm`), and that is the one which is written (`isSecondsForm_iff`). For a run without
zeros on the left is the one written for its value, and a fraction without zeros on the right is
what is left of nine digits when the zeros at their end are dropped (`fractionDigits_nanoseconds`).

The main statement is `seconds_form_is_canonical`: to read a text and write it again normalises it.
-/

namespace AlertRegistry.Period

open Text

/-- Digits of seconds and of a fraction that have no zero to spare: no zero on the left of the
seconds unless it is the only digit, no zero on the right of the fraction, and no fraction that is
zero. -/
structure IsPlain (whole fraction : List Char) : Prop where
  /-- The seconds are a number. -/
  number : IsNumber whole
  /-- A zero in front stands alone. -/
  whole_head : whole.head? = some '0' → whole = ['0']
  /-- The fraction has digits only. -/
  digits : ∀ f ∈ fraction, f.isDigit = true
  /-- There are at most nine of them. -/
  length_fraction : fraction.length ≤ 9
  /-- The last of them is no zero. -/
  fraction_last : fraction.getLast? ≠ some '0'
  /-- A fraction that is written is not zero. -/
  fraction_ne_zero : fraction ≠ [] → natOfDigits fraction ≠ 0

/-- The text is the seconds form of the period: `PT`, its seconds, its fraction as a decimal
fraction behind a point if it has one, and `S`. -/
def IsSecondsForm (p : Period) (s : String) : Prop :=
  ∃ whole fraction, IsPlain whole fraction
    ∧ s.toList = 'P' :: 'T' :: secondsComponent (some (whole, fraction))
    ∧ natOfDigits whole = p.seconds
    ∧ natOfDigits fraction * 10 ^ 9 = p.nanoseconds * 10 ^ fraction.length

/-! ## The fraction -/

/-- Nine digits without the zeros at their end are the digits to which the zeros were added. -/
theorem fractionDigits_nanoseconds {fs : List Char} (hd : ∀ f ∈ fs, f.isDigit = true)
    (hlen : fs.length ≤ 9) (hlast : fs.getLast? ≠ some '0') :
    fractionDigits (natOfDigits (padRight 9 fs)) = fs := by
  have hpad : (padRight 9 fs).length = 9 := by
    rw [padRight, List.length_append, List.length_replicate]
    omega
  have hdigits : ∀ f ∈ padRight 9 fs, f.isDigit = true := by
    intro f hf
    rw [padRight, List.mem_append] at hf
    exact hf.elim (hd f) (isDigit_of_mem_zeros f)
  have hback : padLeft 9 (digitsOfNat (natOfDigits (padRight 9 fs))) = padRight 9 fs := by
    have h := padLeft_digitsOfNat hdigits (List.ne_nil_of_length_pos (by omega))
    rwa [hpad] at h
  rw [fractionDigits_eq, hback, padRight, stripZeros_append_zeros, stripZeros_eq_self hlast]

/-- The digits of a fraction in its own scale, and extended to nine places, say the same. -/
theorem natOfDigits_padRight_iff {fs : List Char} (hlen : fs.length ≤ 9) {n : ℕ} :
    natOfDigits (padRight 9 fs) = n ↔ natOfDigits fs * 10 ^ 9 = n * 10 ^ fs.length := by
  have hscale : natOfDigits (padRight 9 fs) * 10 ^ fs.length = natOfDigits fs * 10 ^ 9 :=
    Components.nanoseconds_mul (c := { fraction := fs }) hlen
  rw [← hscale]
  exact (Nat.mul_left_inj (Nat.pow_pos (by decide)).ne').symm

/-! ## What is written -/

/-- The seconds form in the words of the grammar. -/
theorem toChars_eq (p : Period) :
    p.toChars = 'P' :: 'T' ::
      secondsComponent (some (digitsOfNat p.seconds, fractionDigits p.nanoseconds)) := by
  by_cases hn : p.nanoseconds = 0
  · have hnil : fractionDigits 0 = [] := by decide
    simp [toChars, hn, hnil, secondsComponent]
  · obtain ⟨f, fs, hcons⟩ :=
      List.exists_cons_of_ne_nil (fractionDigits_ne_nil p.nanoseconds_lt hn)
    simp [toChars, hn, hcons, secondsComponent]

theorem isPlain_digits (p : Period) :
    IsPlain (digitsOfNat p.seconds) (fractionDigits p.nanoseconds) where
  number := ⟨digitsOfNat_ne_nil _, isDigit_of_mem_digitsOfNat⟩
  whole_head h := by
    rcases Nat.eq_zero_or_pos p.seconds with hzero | hpos
    · rw [hzero]
      rfl
    · exact absurd h (head?_digitsOfNat_ne hpos)
  digits := isDigit_of_mem_fractionDigits
  length_fraction := length_fractionDigits_le p.nanoseconds_lt
  fraction_last := getLast?_stripZeros _
  fraction_ne_zero hne hzero := by
    -- a fraction of zeros would belong to a whole number of seconds, which has none
    have hvalue := nanoseconds_fractionDigits p.nanoseconds_lt
    rw [padRight, natOfDigits_append_zeros, hzero, Nat.zero_mul] at hvalue
    rw [← hvalue] at hne
    exact hne (by decide)

/-- The seconds form is what is written, and nothing else is. -/
theorem isSecondsForm_iff {p : Period} {s : String} : IsSecondsForm p s ↔ s = toString p := by
  have hwritten : (toString p).toList = p.toChars := String.toList_ofList
  constructor
  · rintro ⟨whole, fraction, hplain, hs, hseconds, hnanoseconds⟩
    have hwhole : whole = digitsOfNat p.seconds := by
      rw [← hseconds, digitsOfNat_natOfDigits hplain.number.2 hplain.number.1 hplain.whole_head]
    have hfraction : fraction = fractionDigits p.nanoseconds := by
      rw [← (natOfDigits_padRight_iff hplain.length_fraction).2 hnanoseconds,
        fractionDigits_nanoseconds hplain.digits hplain.length_fraction hplain.fraction_last]
    rw [← String.toList_inj, hs, hwritten, toChars_eq, hwhole, hfraction]
  · rintro rfl
    refine ⟨_, _, isPlain_digits p, hwritten.trans p.toChars_eq, natOfDigits_digitsOfNat _, ?_⟩
    exact (natOfDigits_padRight_iff (length_fractionDigits_le p.nanoseconds_lt)).1
      (nanoseconds_fractionDigits p.nanoseconds_lt)

/-- What is written for a period is read as that period, and it is the one seconds form of the
period. So two texts that are read are written again as the same text exactly if they denote the
same period. -/
theorem seconds_form_is_canonical :
    (∀ p : Period, ofString (toString p) = .ok p)
    ∧ (∀ (p : Period) (t : String), IsSecondsForm p t ↔ t = toString p)
    ∧ ∀ s t p q, ofString s = .ok p → ofString t = .ok q → (toString p = toString q ↔ p = q) := by
  refine ⟨ofString_toString, fun _ _ => isSecondsForm_iff, fun _ _ p q _ _ => ⟨?_, ?_⟩⟩
  · intro h
    have hback := ofString_toString p
    rw [h, ofString_toString q] at hback
    exact (Except.ok.inj hback).symm
  · rintro rfl
    rfl

/-- Two texts of one period, with weeks and with a zero at the end of the fraction, are written
again as its seconds form. -/
theorem week_form_is_rewritten :
    ∃ p q, ofString "P1WT0M001.05S" = .ok p ∧ ofString "PT604801.050S" = .ok q
      ∧ toString p = toString q ∧ IsSecondsForm p "PT604801.05S" := by
  obtain ⟨-, hform, hsame⟩ := seconds_form_is_canonical
  have hweek : ofString "P1WT0M001.05S" = .ok { seconds := 604801, nanoseconds := 50000000 } := by
    decide +kernel
  have hseconds : ofString "PT604801.050S"
      = .ok { seconds := 604801, nanoseconds := 50000000 } := by
    decide +kernel
  exact ⟨_, _, hweek, hseconds, (hsame _ _ _ _ hweek hseconds).2 rfl,
    (hform _ _).2 (by decide +kernel)⟩

end AlertRegistry.Period
