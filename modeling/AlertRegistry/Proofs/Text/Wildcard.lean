import AlertRegistry.Text.Wildcard
import Mathlib.Data.List.Infix

/-!
# What a containment pattern matches

The pattern of all texts that contain a needle is `%`, the needle with its special characters
escaped, and `%` again. What it matches is said by `matchesPattern_containing`: the needle is looked
for without regard to the case of ASCII letters, and of needle and text only what precedes the first
U+0000 takes part. A needle with U+0000 loses the closing `%` along with what follows, so that it is
looked for at the end of what is seen of the text (`ShownIn`).

A needle that begins in what is seen of a text is always found (`shownIn_of_visible`).
-/

namespace AlertRegistry.Text

/-! ## Matching -/

namespace Wildcard

theorem matchAll_nil {ts : List Nat} : matchAll [] ts = true ↔ ts = [] := by
  rw [matchAll, List.isEmpty_iff]

/-- A run of any length lets the rest of the pattern match any end of the text. -/
theorem matchAll_anyRun {ps : List Wildcard} {ts : List Nat} :
    matchAll (anyRun :: ps) ts = true ↔ ∃ rest, rest <:+ ts ∧ matchAll ps rest = true := by
  induction ts with
  | nil => simp [matchAll]
  | cons t ts ih =>
    rw [matchAll, Bool.or_eq_true, ih]
    simp only [List.suffix_cons_iff, or_and_right, exists_or, exists_eq_left]

theorem matchAll_anyRun_nil (ts : List Nat) : matchAll [anyRun] ts = true :=
  matchAll_anyRun.2 ⟨[], List.nil_suffix, matchAll_nil.2 rfl⟩

/-- Characters that stand for themselves match a beginning of the text, up to case. -/
theorem matchAll_exactly {es : List Nat} {ps : List Wildcard} {ts : List Nat} :
    matchAll (es.map exactly ++ ps) ts = true ↔
      ∃ us vs, ts = us ++ vs ∧ es.map lowerPoint = us.map lowerPoint ∧ matchAll ps vs = true := by
  induction es generalizing ts with
  | nil =>
    constructor
    · intro h
      exact ⟨[], ts, rfl, rfl, h⟩
    · rintro ⟨us, vs, rfl, hus, h⟩
      cases List.map_eq_nil_iff.1 hus.symm
      exact h
  | cons e es ih =>
    rw [List.map_cons, List.cons_append]
    cases ts with
    | nil =>
      rw [matchAll]
      constructor
      · intro h
        cases h
      · rintro ⟨us, vs, hts, hus, _⟩
        obtain ⟨rfl, rfl⟩ := List.append_eq_nil_iff.1 hts.symm
        cases hus
    | cons t ts =>
      rw [matchAll, Bool.and_eq_true, beq_iff_eq, ih]
      constructor
      · rintro ⟨ht, us, vs, rfl, hus, h⟩
        exact ⟨t :: us, vs, rfl, by rw [List.map_cons, List.map_cons, ht, hus], h⟩
      · rintro ⟨us, vs, hts, hus, h⟩
        cases us with
        | nil => cases hus
        | cons u us =>
          obtain ⟨rfl, rfl⟩ := List.cons.inj hts
          obtain ⟨ht, hus⟩ := List.cons.inj hus
          exact ⟨ht, us, vs, rfl, hus, h⟩

/-! ## The pattern of a needle -/

theorem ofPoints?_cons {p : Nat} (hescape : p ≠ 92) (hrun : p ≠ 37) (hone : p ≠ 95)
    (ps : List Nat) : ofPoints? (p :: ps) = (ofPoints? ps).map (exactly p :: ·) := by
  rw [ofPoints?.eq_def]
  split <;> simp_all

end Wildcard

/-- The text has a character U+0000. -/
def HasNul (cs : List Char) : Prop :=
  ∃ c ∈ cs, c.toNat = 0

instance (cs : List Char) : Decidable (HasNul cs) :=
  List.decidableBEx (fun c : Char => c.toNat = 0) cs

theorem not_hasNul_nil : ¬ HasNul [] := by
  rintro ⟨c, hc, _⟩
  cases hc

theorem hasNul_cons {c : Char} {cs : List Char} : HasNul (c :: cs) ↔ c.toNat = 0 ∨ HasNul cs := by
  simp [HasNul]

theorem searchPoints_cons_of_nul {c : Char} (h : c.toNat = 0) (cs : List Char) :
    searchPoints (c :: cs) = [] := by
  simp [searchPoints, h]

/-- What follows U+0000 is not seen. -/
theorem searchPoints_append (cs ds : List Char) :
    searchPoints (cs ++ ds) = searchPoints cs ++ if HasNul cs then [] else searchPoints ds := by
  induction cs with
  | nil => rw [if_neg not_hasNul_nil]; rfl
  | cons c cs ih =>
    rw [List.cons_append]
    by_cases hc : c.toNat = 0
    · rw [searchPoints_cons_of_nul hc, searchPoints_cons_of_nul hc,
        if_pos (hasNul_cons.2 (.inl hc))]
      rfl
    · simp only [searchPoints_cons _ hc, ih, hasNul_cons, hc, false_or, List.cons_append]

/-- Only the special characters are read as such. -/
theorem searchPoint_ne {c d : Char} (h : c ≠ d) (hd : d.toNat < 0xFFFD) :
    searchPoint c ≠ d.toNat := by
  have hne : c.toNat ≠ d.toNat := fun heq => h (Char.ext (UInt32.toNat_inj.1 heq))
  unfold searchPoint
  split <;> omega

/-- The escaped needle is read as the characters of the needle, each standing for itself. -/
theorem ofPoints?_escapeNeedle (needle rest : List Char) :
    Wildcard.ofPoints? (searchPoints (escapeNeedle needle ++ rest))
      = (Wildcard.ofPoints? (if HasNul needle then [] else searchPoints rest)).map
        ((searchPoints needle).map .exactly ++ ·) := by
  induction needle with
  | nil =>
    rw [if_neg not_hasNul_nil]
    exact Option.map_id'.symm
  | cons c cs ih =>
    have hescape : escapeNeedle (c :: cs) ++ rest
        = (if c = '\\' ∨ c = '%' ∨ c = '_' then ['\\', c] else [c])
          ++ (escapeNeedle cs ++ rest) := by
      unfold escapeNeedle
      rw [List.flatMap_cons, List.append_assoc]
    rw [hescape]
    by_cases hc : c.toNat = 0
    · -- nothing is seen from here on
      have hplain : ¬ (c = '\\' ∨ c = '%' ∨ c = '_') := by
        rintro (rfl | rfl | rfl) <;> cases hc
      rw [if_neg hplain, List.singleton_append, searchPoints_cons_of_nul hc,
        searchPoints_cons_of_nul hc, if_pos (hasNul_cons.2 (.inl hc))]
      rfl
    · simp only [hasNul_cons, hc, false_or]
      rw [searchPoints_cons cs hc, List.map_cons]
      split
      · next hspecial =>
        -- the backslash takes the next character as it is
        show Wildcard.ofPoints? (searchPoints ('\\' :: c :: (escapeNeedle cs ++ rest))) = _
        rw [searchPoints_cons _ (by decide), searchPoints_cons _ hc]
        show (Wildcard.ofPoints? (searchPoints (escapeNeedle cs ++ rest))).map _ = _
        rw [ih, Option.map_map]
        rfl
      · next hplain =>
        rw [not_or, not_or] at hplain
        rw [List.singleton_append, searchPoints_cons _ hc,
          Wildcard.ofPoints?_cons (searchPoint_ne hplain.1 (by decide))
            (searchPoint_ne hplain.2.1 (by decide)) (searchPoint_ne hplain.2.2 (by decide)),
          ih, Option.map_map]
        rfl

/-! ## Containment -/

/-- The needle is seen in the code points of a text: up to the case of ASCII letters, what is seen
of it is a run of them, or their end if the needle has a character U+0000. -/
def ShownIn (needle : List Char) (points : List Nat) : Prop :=
  if HasNul needle then (searchPoints needle).map lowerPoint <:+ points.map lowerPoint
  else (searchPoints needle).map lowerPoint <:+: points.map lowerPoint

instance (needle : List Char) (points : List Nat) : Decidable (ShownIn needle points) := by
  unfold ShownIn
  infer_instance

/-- The closing `%` is lost if the needle has a character U+0000. -/
theorem ofPoints?_containing (needle : List Char) :
    Wildcard.ofPoints? (searchPoints (containing needle))
      = some (.anyRun :: ((searchPoints needle).map .exactly
        ++ if HasNul needle then [] else [.anyRun])) := by
  show (Wildcard.ofPoints? (searchPoints (escapeNeedle needle ++ ['%']))).map _ = _
  rw [ofPoints?_escapeNeedle]
  split <;> rfl

/-- The pattern of a needle matches the texts in which the needle is seen. -/
theorem matchesPattern_containing {needle : List Char} {points : List Nat} :
    matchesPattern (containing needle) points = true ↔ ShownIn needle points := by
  unfold matchesPattern ShownIn
  rw [ofPoints?_containing]
  dsimp only
  rw [Wildcard.matchAll_anyRun]
  simp only [Wildcard.matchAll_exactly]
  split
  · simp only [Wildcard.matchAll_nil, List.suffix_map_iff]
    constructor
    · rintro ⟨rest, hrest, us, vs, rfl, hus, rfl⟩
      rw [List.append_nil] at hrest
      exact ⟨us, hrest, hus⟩
    · rintro ⟨us, hus, heq⟩
      exact ⟨us, hus, us, [], (List.append_nil us).symm, heq, rfl⟩
  · rw [List.infix_map_iff]
    constructor
    · rintro ⟨rest, hrest, us, vs, rfl, hus, -⟩
      exact ⟨us, (List.prefix_append us vs).isInfix.trans hrest.isInfix, hus⟩
    · rintro ⟨us, ⟨before, after, rfl⟩, heq⟩
      refine ⟨us ++ after, ?_, us, after, rfl, heq, Wildcard.matchAll_anyRun_nil after⟩
      rw [List.append_assoc]
      exact List.suffix_append before (us ++ after)

/-- A needle that begins in what is seen of a text is seen in it. -/
theorem shownIn_of_visible {before needle after : List Char} (h : ¬ HasNul before) :
    ShownIn needle (searchPoints (before ++ needle ++ after)) := by
  have hpoints : searchPoints (before ++ needle ++ after)
      = searchPoints before ++ searchPoints (needle ++ after) := by
    rw [List.append_assoc, searchPoints_append, if_neg h]
  unfold ShownIn
  rw [hpoints, searchPoints_append needle, List.map_append]
  split
  · rw [List.append_nil]
    exact List.suffix_append ((searchPoints before).map lowerPoint) _
  · rw [List.map_append, ← List.append_assoc]
    exact ⟨_, _, rfl⟩

/-- In a text that is seen as a whole, every needle that it contains is seen. -/
theorem shownIn_of_infix {needle text : List Char} (htext : ¬ HasNul text)
    (h : needle <:+: text) : ShownIn needle (searchPoints text) := by
  obtain ⟨before, after, rfl⟩ := h
  have hbefore : ¬ HasNul before := by
    rintro ⟨c, hc, hnul⟩
    exact htext ⟨c, List.mem_append_left _ (List.mem_append_left _ hc), hnul⟩
  exact shownIn_of_visible hbefore

end AlertRegistry.Text
