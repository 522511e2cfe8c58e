import AlertRegistry.Proofs.Repository.GenericSearch

/-!
# Generic containment

The pattern of a needle is built so that everything in it stands for itself. So what a generic search
makes of a needle and a text without U+0000 is said by one function on characters (`seenAs`): the
text contains the needle if, character by character as they are seen, the needle is a run of the text
(`generic_search_is_literal`).

ASCII letters are seen in lower case. The two noncharacters U+FFFE and U+FFFF are seen as U+FFFD, so
that a search for one of the three finds the others (`noncharacter_is_taken_for_replacement`). Every
other character is seen as itself, the special characters of patterns included.
-/

namespace AlertRegistry

namespace Text

/-! ## What is seen of a character -/

/-- The two code points that a search does not tell from U+FFFD. -/
def IsNoncharacter (c : Char) : Prop :=
  c = '\uFFFE' ∨ c = '\uFFFF'

instance : DecidablePred IsNoncharacter :=
  fun c => inferInstanceAs (Decidable (c = '\uFFFE' ∨ c = '\uFFFF'))

/-- What a generic search sees of a character. -/
def seenAs (c : Char) : Char :=
  if IsNoncharacter c then '\uFFFD' else c.toLower

/-- The character is seen as itself, and no other one is seen as it: it is no ASCII letter, and not
U+FFFD or one of the noncharacters that are seen so. -/
def IsUnmistakable (c : Char) : Prop :=
  c.isAlpha = false ∧ c ≠ '\uFFFD' ∧ ¬ IsNoncharacter c

instance : DecidablePred IsUnmistakable :=
  fun c => inferInstanceAs (Decidable (c.isAlpha = false ∧ c ≠ '\uFFFD' ∧ ¬ IsNoncharacter c))

theorem isNoncharacter_iff {c : Char} : IsNoncharacter c ↔ c.toNat = 0xFFFE ∨ c.toNat = 0xFFFF :=
  or_congr Char.toNat_inj.symm Char.toNat_inj.symm

theorem toNat_toLower (c : Char) : c.toLower.toNat = lowerPoint c.toNat := by
  have hrange : (c.val ≥ 'A'.val ∧ c.val ≤ 'Z'.val) ↔ 65 ≤ c.toNat ∧ c.toNat ≤ 90 := by
    rw [ge_iff_le, UInt32.le_iff_toNat_le, UInt32.le_iff_toNat_le]
    exact Iff.rfl
  unfold Char.toLower lowerPoint
  split
  · next h =>
    have hle : c.val.toNat ≤ 90 := (hrange.1 h).2
    rw [if_pos (hrange.1 h)]
    show (c.val + 32).toNat = c.val.toNat + 32
    rw [UInt32.toNat_add]
    show (c.val.toNat + 32) % 2 ^ 32 = _
    exact Nat.mod_eq_of_lt (by omega)
  · next h => rw [if_neg (mt hrange.2 h)]

theorem toNat_seenAs (c : Char) : (seenAs c).toNat = lowerPoint (searchPoint c) := by
  unfold seenAs searchPoint
  split
  · next h =>
    rw [if_pos (isNoncharacter_iff.1 h)]
    rfl
  · next h => rw [if_neg (mt isNoncharacter_iff.2 h), toNat_toLower]

/-- What is seen as an unmistakable character is that character. -/
theorem eq_of_seenAs_eq {c d : Char} (hc : IsUnmistakable c) (h : seenAs c = seenAs d) : c = d := by
  obtain ⟨hletter, hreplacement, hnon⟩ := hc
  have hcase : ¬ (65 ≤ c.toNat ∧ c.toNat ≤ 90) ∧ ¬ (97 ≤ c.toNat ∧ c.toNat ≤ 122) := by
    simp only [Char.isAlpha, Char.isUpper, Char.isLower, ge_iff_le, UInt32.le_iff_toNat_le,
      Bool.or_eq_false_iff, ← Bool.decide_and, decide_eq_false_iff_not] at hletter
    exact hletter
  have hpoint : c.toNat ≠ 0xFFFD := fun heq => hreplacement (Char.toNat_inj.1 heq)
  have hsame := congrArg Char.toNat h
  rw [toNat_seenAs, toNat_seenAs, lowerPoint_eq_lowerPoint_iff] at hsame
  rw [isNoncharacter_iff] at hnon
  unfold searchPoint at hsame
  rw [if_neg hnon] at hsame
  apply Char.toNat_inj.1
  split at hsame <;> omega

/-! ## What is seen of a text -/

section

variable {needle text : List Char}

theorem map_lowerPoint_searchPoints (h : ¬ HasNul text) :
    (searchPoints text).map lowerPoint = (text.map seenAs).map Char.toNat := by
  have hall : ∀ c ∈ text, (c.toNat != 0) = true := fun c hc =>
    bne_iff_ne.2 fun hnul => h ⟨c, hc, hnul⟩
  unfold searchPoints
  rw [List.takeWhile_eq_self_iff.2 hall, List.map_map, List.map_map]
  exact List.map_congr_left fun c _ => (toNat_seenAs c).symm

theorem infix_map_toNat : needle.map Char.toNat <:+: text.map Char.toNat ↔ needle <:+: text := by
  have hinj : Function.Injective Char.toNat := fun _ _ => Char.toNat_inj.1
  rw [List.infix_map_iff]
  constructor
  · rintro ⟨us, hus, heq⟩
    exact List.map_injective_iff.2 hinj heq ▸ hus
  · intro h
    exact ⟨needle, h, rfl⟩

/-- A needle is seen in a text if it is a run of it, both as they are seen. -/
theorem shownIn_iff (hneedle : ¬ HasNul needle) (htext : ¬ HasNul text) :
    ShownIn needle (searchPoints text) ↔ needle.map seenAs <:+: text.map seenAs := by
  unfold ShownIn
  rw [if_neg hneedle, map_lowerPoint_searchPoints hneedle, map_lowerPoint_searchPoints htext,
    infix_map_toNat]

/-- Without noncharacters the search only ignores the case of ASCII letters. -/
theorem map_seenAs (h : ∀ c ∈ text, ¬ IsNoncharacter c) : text.map seenAs = text.map Char.toLower :=
  List.map_congr_left fun c hc => if_neg (h c hc)

theorem eq_of_map_seenAs_eq (hneedle : ∀ c ∈ needle, IsUnmistakable c)
    (h : needle.map seenAs = text.map seenAs) : needle = text := by
  induction needle generalizing text with
  | nil => exact (List.map_eq_nil_iff.1 h.symm).symm
  | cons c cs ih =>
    cases text with
    | nil => cases h
    | cons d ds =>
      obtain ⟨hhead, htail⟩ := List.cons.inj h
      rw [List.forall_mem_cons] at hneedle
      rw [eq_of_seenAs_eq hneedle.1 hhead, ih hneedle.2 htail]

/-- A needle of unmistakable characters is seen only where it stands. -/
theorem infix_map_seenAs_iff (hneedle : ∀ c ∈ needle, IsUnmistakable c) :
    needle.map seenAs <:+: text.map seenAs ↔ needle <:+: text := by
  rw [List.infix_map_iff]
  constructor
  · rintro ⟨us, hus, heq⟩
    exact eq_of_map_seenAs_eq hneedle heq ▸ hus
  · intro h
    exact ⟨needle, h, rfl⟩

end

end Text

/-! ## The generic clause -/

variable {γ : Type}

/-- The generic clause holds exactly if one of its columns contains the needle, both as they are
seen: in lower case, if they have no noncharacters, and as they are, if the needle has unmistakable
characters only. -/
theorem generic_search_is_literal {columns : List γ} {t : Tuple γ} {needle : String}
    (text : γ → String) (hcells : ∀ c ∈ columns, t c = .text (text c))
    (htexts : ∀ c ∈ columns, ¬ Text.HasNul (text c).toList)
    (hneedle : ¬ Text.HasNul needle.toList) (hfits : FitsPattern needle) :
    (Clause.contains .generic columns needle).holds t
        = .ok (decide (∃ c ∈ columns,
          needle.toList.map Text.seenAs <:+: (text c).toList.map Text.seenAs))
      ∧ ((∀ x ∈ needle.toList, ¬ Text.IsNoncharacter x) →
        (∀ c ∈ columns, ∀ x ∈ (text c).toList, ¬ Text.IsNoncharacter x) →
        (Clause.contains .generic columns needle).holds t
          = .ok (decide (∃ c ∈ columns, (Text.lower needle).toList <:+: (Text.lower (text c)).toList)))
      ∧ ((∀ x ∈ needle.toList, Text.IsUnmistakable x) →
        (Clause.contains .generic columns needle).holds t
          = .ok (decide (∃ c ∈ columns, needle.toList <:+: (text c).toList))) := by
  have hseen : (Clause.contains .generic columns needle).holds t
      = .ok (decide (∃ c ∈ columns,
        needle.toList.map Text.seenAs <:+: (text c).toList.map Text.seenAs)) := by
    rw [Clause.holds_generic hfits]
    refine congrArg Except.ok (decide_eq_decide.2 (exists_congr fun c => and_congr_right fun hc => ?_))
    rw [hcells c hc]
    exact Text.shownIn_iff hneedle (htexts c hc)
  refine ⟨hseen, fun hplain hplains => ?_, fun hliteral => ?_⟩
  · rw [hseen]
    refine congrArg Except.ok (decide_eq_decide.2 (exists_congr fun c => and_congr_right fun hc => ?_))
    rw [Text.map_seenAs hplain, Text.map_seenAs (hplains c hc), Text.lower, Text.lower,
      String.toList_ofList, String.toList_ofList]
  · rw [hseen]
    refine congrArg Except.ok (decide_eq_decide.2 (exists_congr fun c => and_congr_right fun _ => ?_))
    exact Text.infix_map_seenAs_iff hliteral

/-- The marks of patterns are looked for as they stand, and letters in either case. -/
theorem marks_are_looked_for : ¬ Text.HasNul "U_100%\\".toList ∧ FitsPattern "U_100%\\"
    ∧ (Clause.contains .generic [AlertColumn.name] "U_100%\\").holds
      (fun _ => .text "cpu_100%\\") = .ok true
    ∧ (Clause.contains .generic [AlertColumn.name] "U_100%\\").holds
      (fun _ => .text "cpu-1000\\") = .ok false := by
  have hneedle : ¬ Text.HasNul "U_100%\\".toList := by decide
  have hfits : FitsPattern "U_100%\\" := by decide +kernel
  refine ⟨hneedle, hfits, ?_, ?_⟩
  · rw [(generic_search_is_literal (fun _ => "cpu_100%\\") (fun _ _ => rfl)
      (fun _ _ => by decide) hneedle hfits).1]
    decide +kernel
  · rw [(generic_search_is_literal (fun _ => "cpu-1000\\") (fun _ _ => rfl)
      (fun _ _ => by decide) hneedle hfits).1]
    decide +kernel

/-- A text with U+FFFD is found in the search for U+FFFE, which it does not contain. -/
theorem noncharacter_is_taken_for_replacement :
    ¬ Text.HasNul "\uFFFE".toList ∧ ¬ Text.HasNul "\uFFFD".toList ∧ FitsPattern "\uFFFE"
      ∧ (Clause.contains .generic [AlertColumn.name] "\uFFFE").holds (fun _ => .text "\uFFFD")
        = .ok true
      ∧ ¬ (Text.lower "\uFFFE").toList <:+: (Text.lower "\uFFFD").toList := by
  have hfits : FitsPattern "\uFFFE" := by decide +kernel
  refine ⟨by decide, by decide, hfits, ?_, by decide⟩
  rw [Clause.holds_generic hfits]
  decide +kernel

end AlertRegistry
