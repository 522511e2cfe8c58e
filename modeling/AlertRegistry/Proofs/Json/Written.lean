import AlertRegistry.Proofs.Json.Number
import AlertRegistry.Proofs.Json.Tree

/-!
# Trees as they are written

`Tree.WrittenAs t cs` says that the characters `cs` are those of the tree `t`. Everything that is
written is put together of literals, numbers, texts, arrays and objects, and so is its tree. A
record is written as the object of its fields in their order, and its fields are found again, those
missing that were left out at the end (`Tree.fields?_record`).
-/

namespace AlertRegistry.Json

open Decimal (Binary Numeral)

namespace Tree

/-- The characters are those of the tree. -/
def WrittenAs (t : Tree) (cs : List Char) : Prop :=
  ∃ ts, Spells cs ts ∧ Builds ts t

theorem WrittenAs.ofString? {t : Tree} {cs : List Char} (h : t.WrittenAs cs) :
    ofString? (String.ofList cs) = some t := by
  obtain ⟨ts, hspells, hbuilds⟩ := h
  exact Tree.ofString?_ofList hspells hbuilds

/-! ## Literals, texts and numbers -/

theorem writtenAs_null : null.WrittenAs ['n', 'u', 'l', 'l'] :=
  ⟨_, spells_token rfl fun _ => rfl, builds_null⟩

theorem writtenAs_true : (bool true).WrittenAs ['t', 'r', 'u', 'e'] :=
  ⟨_, spells_token rfl fun _ => rfl, builds_bool true⟩

theorem writtenAs_false : (bool false).WrittenAs ['f', 'a', 'l', 's', 'e'] :=
  ⟨_, spells_token rfl fun _ => rfl, builds_bool false⟩

theorem writtenAs_text (cs : List Char) : (string (cs.map .char)).WrittenAs (writeText cs) :=
  ⟨_, spells_writeText cs, builds_string _⟩

theorem writtenAs_numeral {n : Numeral} (hn : n.WellFormed) : (numeral n).WrittenAs n.chars :=
  ⟨_, spells_numeral hn, builds_numeral n⟩

/-- The tree of a finite double. -/
theorem writtenAs_float {x : Float} {b : Binary} (h : Binary.ofFloat? x = some b) :
    (numeral (numberStyle.numeral b)).WrittenAs (writeFloat x) := by
  unfold writeFloat
  rw [h]
  dsimp only
  rw [← Decimal.Style.chars_numeral]
  exact writtenAs_numeral (wellFormed_numeral (Double.isCanonical_of_ofFloat? h).1)

/-- The numeral of an integer. -/
def integerNumeral (n : ℤ) : Numeral where
  negative := decide (n < 0)
  whole := Text.digitsOfNat n.natAbs
  fraction := none
  exponent := none

theorem wellFormed_integerNumeral (n : ℤ) : (integerNumeral n).WellFormed where
  whole := Text.isDigit_of_mem_digitsOfNat
  whole_ne_nil := Text.digitsOfNat_ne_nil _
  whole_head h := by
    rcases Nat.eq_zero_or_pos n.natAbs with hzero | hpos
    · show (Text.digitsOfNat n.natAbs).length = 1
      rw [hzero]
      rfl
    · exact absurd h (Text.head?_digitsOfNat_ne hpos)
  fraction := nofun
  exponent := nofun

theorem writtenAs_integer (n : ℤ) : (numeral (integerNumeral n)).WrittenAs (writeInteger n) := by
  have hchars : (integerNumeral n).chars = writeInteger n := by
    simp only [Numeral.chars, Numeral.sizeChars, Numeral.fractionChars, Numeral.exponentChars,
      integerNumeral, writeInteger, List.append_nil, decide_eq_true_eq]
    split <;> rfl
  exact hchars ▸ writtenAs_numeral (wellFormed_integerNumeral n)

/-- An integer of 64 bits, signed or unsigned, is read as itself. -/
theorem integer?_integerNumeral {n : ℤ} (hlo : -2 ^ 63 ≤ n) (hhi : n < 2 ^ 64) :
    (integerNumeral n).integer? = some n := by
  unfold Numeral.integer? integerNumeral
  simp only [and_self, if_true, Text.natOfDigits_digitsOfNat, decide_eq_true_eq]
  split
  · rw [if_pos (by omega)]
    congr 1
    omega
  · rw [if_pos (by omega)]
    congr 1
    omega

/-! ## Arrays and objects -/

/-- Where each element leads to the other through something, these things make up a list. -/
theorem exists_forall₂_comp {α β γ : Type} {R : α → β → Prop} {S : β → γ → Prop} {l : List α}
    {n : List γ} (h : List.Forall₂ (fun a c => ∃ b, R a b ∧ S b c) l n) :
    ∃ m, List.Forall₂ R l m ∧ List.Forall₂ S m n := by
  induction h with
  | nil => exact ⟨[], .nil, .nil⟩
  | cons hhead _ ih =>
    obtain ⟨b, hr, hs⟩ := hhead
    obtain ⟨m, hrs, hss⟩ := ih
    exact ⟨b :: m, .cons hr hrs, .cons hs hss⟩

theorem writtenAs_array {l : List (List Char)} {items : List Tree}
    (h : List.Forall₂ (fun cs t => t.WrittenAs cs) l items) :
    (array items).WrittenAs ('[' :: separated l ++ [']']) := by
  obtain ⟨tokens, hspells, hbuilds⟩ := exists_forall₂_comp h
  refine ⟨_, ?_, builds_array hbuilds⟩
  exact ((spells_separated hspells).append (spells_nil.cons rfl fun _ => rfl)
    (Token.endsNumeral_cons (by decide))).cons rfl fun _ => rfl

/-- The characters are those of a member. -/
def MemberWrittenAs (m : List Piece × Tree) (cs : List Char) : Prop :=
  ∃ ts, Spells cs ts ∧ BuildsMember ts m

theorem WrittenAs.member {t : Tree} {cs : List Char} (h : t.WrittenAs cs) (key : String) :
    MemberWrittenAs (key.toList.map .char, t) (writeMember key cs) := by
  obtain ⟨ts, hspells, hbuilds⟩ := h
  exact ⟨_, spells_writeMember key hspells, hbuilds.member _⟩

theorem writtenAs_object {l : List (List Char)} {ms : List (List Piece × Tree)}
    (h : List.Forall₂ (fun cs m => MemberWrittenAs m cs) l ms) :
    (object ms).WrittenAs (enclose l) := by
  obtain ⟨tokens, hspells, hbuilds⟩ := exists_forall₂_comp h
  exact ⟨_, spells_enclose hspells, builds_object hbuilds⟩

/-! ## Records -/

/-- The object of the first fields of a record. -/
def record (names : List String) (trees : List Tree) : Tree :=
  object (List.zipWith (fun name t => (name.toList.map .char, t)) names trees)

theorem writtenAs_record {l : List (List Char)} {trees : List Tree}
    (h : List.Forall₂ (fun cs t => t.WrittenAs cs) l trees) (names : List String) :
    (record names trees).WrittenAs (enclose (List.zipWith writeMember names l)) := by
  refine writtenAs_object ?_
  induction h generalizing names with
  | nil => cases names <;> exact .nil
  | cons hhead _ ih =>
    cases names with
    | nil => exact .nil
    | cons name names => exact .cons (hhead.member name) (ih names)

/-- The fields are put behind those that were found before. -/
theorem placeMembers_record {before names : List String} {found trees : List Tree}
    (hnodup : (before ++ names).Nodup) (hfound : found.length = before.length)
    (hlen : trees.length ≤ names.length) :
    placeMembers (before ++ names)
        (List.zipWith (fun name t => (name.toList.map .char, t)) names trees)
        (found.map some ++ List.replicate names.length none)
      = some ((found ++ trees).map some
          ++ List.replicate (names.length - trees.length) none) := by
  induction names generalizing before found trees with
  | nil =>
    obtain rfl : trees = [] := List.eq_nil_of_length_eq_zero (Nat.le_zero.1 hlen)
    rw [List.append_nil found]
    rfl
  | cons name names ih =>
    cases trees with
    | nil =>
      rw [List.append_nil found]
      rfl
    | cons t trees =>
      have hnew : name ∉ before := fun hmem =>
        (List.nodup_append.1 hnodup).2.2 name hmem name List.mem_cons_self rfl
      have hindex : (before ++ name :: names).idxOf? name = some found.length := by
        rw [hfound, List.idxOf?_eq_some_iff]
        exact ⟨by simp, by simp, fun j hj => by
          rw [List.getElem_append_left hj]
          exact fun h => hnew (h ▸ List.getElem_mem hj)⟩
      have hempty : (found.map some ++ List.replicate (names.length + 1) none)[found.length]?
          = some (none : Option Tree) := by
        rw [List.getElem?_append_right (by simp)]
        simp
      have hset : (found.map some ++ List.replicate (names.length + 1) none).set found.length
          (some t) = (found ++ [t]).map some ++ List.replicate names.length none := by
        rw [List.set_append_right _ _ (by simp), List.length_map, Nat.sub_self,
          List.replicate_succ, List.set_cons_zero, List.map_append, List.append_assoc]
        rfl
      have hrest := @ih (before ++ [name]) (found ++ [t]) trees
        (by rwa [List.append_assoc]) (by simp [hfound]) (Nat.le_of_succ_le_succ hlen)
      rw [List.length_cons, List.zipWith_cons_cons, placeMembers_cons hindex hempty, hset]
      rw [List.append_assoc, List.append_assoc] at hrest
      rw [List.length_cons, Nat.add_sub_add_right]
      exact hrest

/-- The fields of a record are found again, and those left out at its end are missing. -/
theorem fields?_record {names : List String} {trees : List Tree} (hnodup : names.Nodup)
    (hlen : trees.length ≤ names.length) :
    (record names trees).fields? names
      = some (trees.map some ++ List.replicate (names.length - trees.length) none) := by
  have hslots : (names.map fun _ => none) = List.replicate names.length (none : Option Tree) :=
    List.map_const' ..
  unfold fields? record
  dsimp only
  rw [hslots]
  exact @placeMembers_record [] names [] trees hnodup rfl hlen

/-- A name is read as the case that it names. -/
theorem caseName?_string (s : String) : (string (s.toList.map .char)).caseName? = some s := by
  unfold caseName?
  dsimp only
  rw [Piece.join_map_char, Option.map_some, String.ofList_toList]

end Tree

end AlertRegistry.Json
