import AlertRegistry.Proofs.Text.Digits
import AlertRegistry.Text.Blank

/-!
# Integers in texts

The text of an integer is a run of digits with at most one sign in front and white space around both
(`IsIntegerText`). The reader trims the text first and then looks for sign and digits; since neither
is white space, it reads exactly the texts of integers (`readInteger?_trimChars_eq_some_iff`).
-/

namespace AlertRegistry.Text

variable {cs : List Char} {n : ℤ}

/-! ## Sign and digits -/

/-- The characters of an integer: a run of digits, of any length but not empty, after at most one
sign. -/
inductive IsInteger : List Char → ℤ → Prop
  /-- Without a sign. -/
  | unsigned {ds : List Char} (hne : ds ≠ []) (hd : ∀ c ∈ ds, c.isDigit = true) :
    IsInteger ds (natOfDigits ds)
  /-- With a plus sign. -/
  | plus {ds : List Char} (hne : ds ≠ []) (hd : ∀ c ∈ ds, c.isDigit = true) :
    IsInteger ('+' :: ds) (natOfDigits ds)
  /-- With a minus sign. -/
  | minus {ds : List Char} (hne : ds ≠ []) (hd : ∀ c ∈ ds, c.isDigit = true) :
    IsInteger ('-' :: ds) (-(natOfDigits ds : ℤ))

theorem readNat?_eq_some_iff {k : ℕ} :
    readNat? cs = some k ↔ (cs ≠ [] ∧ ∀ c ∈ cs, c.isDigit = true) ∧ natOfDigits cs = k := by
  unfold readNat?
  split
  · next h =>
    rw [List.all_eq_true] at h
    rw [Option.some.injEq]
    exact ⟨fun heq => ⟨h, heq⟩, And.right⟩
  · next h =>
    rw [List.all_eq_true] at h
    exact iff_of_false nofun fun hn => h hn.1

/-- An integer is read exactly from its characters. -/
theorem readInteger?_eq_some_iff : readInteger? cs = some n ↔ IsInteger cs n := by
  constructor
  · intro h
    unfold readInteger? at h
    split at h
    · obtain ⟨m, hm, rfl⟩ := Option.map_eq_some_iff.1 h
      obtain ⟨k, hk, hcast⟩ := Option.bind_eq_some_iff.1 hm
      obtain ⟨⟨hne, hd⟩, rfl⟩ := readNat?_eq_some_iff.1 hk
      obtain rfl := Option.some.inj hcast
      exact .minus hne hd
    · obtain ⟨k, hk, rfl⟩ := Option.map_eq_some_iff.1 h
      obtain ⟨⟨hne, hd⟩, rfl⟩ := readNat?_eq_some_iff.1 hk
      exact .plus hne hd
    · obtain ⟨k, hk, rfl⟩ := Option.map_eq_some_iff.1 h
      obtain ⟨⟨hne, hd⟩, rfl⟩ := readNat?_eq_some_iff.1 hk
      exact .unsigned hne hd
  · intro h
    cases h with
    | minus hne hd =>
      rw [readInteger?, readNat?_eq_some_iff.2 ⟨⟨hne, hd⟩, rfl⟩]
      rfl
    | plus hne hd =>
      rw [readInteger?, readNat?_eq_some_iff.2 ⟨⟨hne, hd⟩, rfl⟩]
      rfl
    | unsigned hne hd =>
      have hread := readNat?_eq_some_iff.2 ⟨⟨hne, hd⟩, rfl⟩
      unfold readInteger?
      split
      -- a sign is no digit
      · exact absurd (hd '-' List.mem_cons_self) (by decide)
      · exact absurd (hd '+' List.mem_cons_self) (by decide)
      · rw [hread]
        rfl

theorem isBlank_of_isDigit {c : Char} (h : c.isDigit = true) : isBlank c = false := by
  simp only [Char.isDigit, Bool.and_eq_true, decide_eq_true_eq] at h
  have hlo : 48 ≤ c.toNat := UInt32.le_iff_toNat_le.1 h.1
  have hhi : c.toNat ≤ 57 := UInt32.le_iff_toNat_le.1 h.2
  simp only [isBlank, Bool.or_eq_false_iff, Bool.and_eq_false_iff, decide_eq_false_iff_not,
    beq_eq_false_iff_ne]
  omega

/-- There is no white space in the characters of an integer. -/
theorem IsInteger.isBlank_eq_false (h : IsInteger cs n) :
    cs ≠ [] ∧ ∀ c ∈ cs, isBlank c = false := by
  cases h with
  | unsigned hne hd => exact ⟨hne, fun c hc => isBlank_of_isDigit (hd c hc)⟩
  | plus hne hd =>
    refine ⟨List.cons_ne_nil _ _, List.forall_mem_cons.2 ⟨by decide, fun c hc => ?_⟩⟩
    exact isBlank_of_isDigit (hd c hc)
  | minus hne hd =>
    refine ⟨List.cons_ne_nil _ _, List.forall_mem_cons.2 ⟨by decide, fun c hc => ?_⟩⟩
    exact isBlank_of_isDigit (hd c hc)

/-! ## White space around -/

/-- What is trimmed off is white space. -/
theorem exists_trimChars (cs : List Char) : ∃ before after, cs = before ++ trimChars cs ++ after
    ∧ (∀ c ∈ before, isBlank c = true) ∧ ∀ c ∈ after, isBlank c = true := by
  refine ⟨cs.takeWhile isBlank, ((cs.dropWhile isBlank).reverse.takeWhile isBlank).reverse, ?_,
    fun c hc => List.mem_takeWhile_imp hc,
    fun c hc => List.mem_takeWhile_imp (List.mem_reverse.1 hc)⟩
  rw [trimChars, List.append_assoc, ← List.reverse_append, List.takeWhile_append_dropWhile,
    List.reverse_reverse, List.takeWhile_append_dropWhile]

/-- White space is trimmed off what has none in it. -/
theorem trimChars_append {before after : List Char} (hne : cs ≠ [])
    (hcs : ∀ c ∈ cs, isBlank c = false) (hbefore : ∀ c ∈ before, isBlank c = true)
    (hafter : ∀ c ∈ after, isBlank c = true) : trimChars (before ++ cs ++ after) = cs := by
  have hkept : ∀ {ds : List Char} (es : List Char), ds ≠ [] → (∀ c ∈ ds, isBlank c = false) →
      (ds ++ es).dropWhile isBlank = ds ++ es := by
    intro ds es hne hds
    obtain ⟨d, ds, rfl⟩ := List.exists_cons_of_ne_nil hne
    exact List.dropWhile_cons_of_neg (by simp [hds d List.mem_cons_self])
  unfold trimChars
  rw [List.append_assoc, List.dropWhile_append_of_pos hbefore, hkept _ hne hcs, List.reverse_append,
    List.dropWhile_append_of_pos fun c hc => hafter c (List.mem_reverse.1 hc)]
  have hback := hkept [] (mt List.reverse_eq_nil_iff.1 hne)
    fun c hc => hcs c (List.mem_reverse.1 hc)
  rw [List.append_nil] at hback
  rw [hback, List.reverse_reverse]

/-- The text of an integer: its characters, with white space around them. -/
def IsIntegerText (s : String) (n : ℤ) : Prop :=
  ∃ before cs after, s.toList = before ++ cs ++ after ∧ (∀ c ∈ before, isBlank c = true)
    ∧ (∀ c ∈ after, isBlank c = true) ∧ IsInteger cs n

/-- An integer is read from its texts once they are trimmed, and from no others. -/
theorem readInteger?_trimChars_eq_some_iff {s : String} :
    readInteger? (trimChars s.toList) = some n ↔ IsIntegerText s n := by
  rw [readInteger?_eq_some_iff]
  constructor
  · intro h
    obtain ⟨before, after, hs, hbefore, hafter⟩ := exists_trimChars s.toList
    exact ⟨before, _, after, hs, hbefore, hafter, h⟩
  · rintro ⟨before, cs, after, hs, hbefore, hafter, h⟩
    obtain ⟨hne, hcs⟩ := h.isBlank_eq_false
    rw [hs, trimChars_append hne hcs hbefore hafter]
    exact h

end AlertRegistry.Text
