import AlertRegistry.Extensions
import AlertRegistry.Proofs.Decimal.Finite
import AlertRegistry.Proofs.Json.Written

/-!
# Values read back

Every value that is read is well-formed (`Tree.wellFormed_of_value?`). A well-formed value is read
back from its text as it is (`Value.WellFormed.exists_tree`), where two things are asked for: that
as many arrays and objects may be opened as it has inside one another (`Value.depth`), and that
every double in it (`Value.floats`) is read back from its own digits (`Recovers`), which the number
reader does not do for all of them.

The proof is by induction on the value. Its text is that of a tree whose parts are the trees of its
parts, and a tree is read part by part.
-/

namespace AlertRegistry.Json

open Decimal (Binary)

/-- The number reader recovers the double from its written digits. -/
def Recovers (x : Float) : Prop :=
  (Tree.ofString? (String.ofList (writeFloat x))).bind Tree.float? = some x

/-- What is recovered is a finite double, from the numeral that is written for it. -/
theorem recovers_iff {x : Float} : Recovers x ↔
    ((Binary.ofFloat? x).bind fun b => (numberStyle.numeral b).float?) = some x := by
  unfold Recovers
  cases hb : Binary.ofFloat? x with
  | none =>
    have hnull : writeFloat x = ['n', 'u', 'l', 'l'] := by
      unfold writeFloat
      rw [hb]
    rw [hnull, Tree.writtenAs_null.ofString?]
    rfl
  | some b =>
    rw [(Tree.writtenAs_float hb).ofString?, Option.bind_some, Option.bind_some]
    unfold Tree.float?
    dsimp only
    rw [Decimal.Style.integer?_numeral]

instance : DecidablePred Recovers :=
  fun _ => decidable_of_iff _ recovers_iff.symm

example : Recovers (-0.0) ∧ Recovers 5e-324 ∧ ¬ Recovers 3.37e200 := by
  decide +kernel

/-! ## Values -/

namespace Value

/-- The integers have 64 bits, signed or unsigned, and the members of the objects are in the order
of their keys, one member a key. -/
inductive WellFormed : Value → Prop
  | null : WellFormed .null
  | bool (b : Bool) : WellFormed (.bool b)
  | integer {n : ℤ} (hlo : -2 ^ 63 ≤ n) (hhi : n < 2 ^ 64) : WellFormed (.integer n)
  | number (x : Float) : WellFormed (.number x)
  | text (s : String) : WellFormed (.text s)
  | array {items : List Value} (hitems : ∀ v ∈ items, WellFormed v) : WellFormed (.array items)
  | object {ms : List (String × Value)} (hkeys : (ms.map Prod.fst).Pairwise (· < ·))
      (hvalues : ∀ m ∈ ms, WellFormed m.2) : WellFormed (.object ms)

mutual

/-- The doubles in a value. -/
def floats : Value → List Float
  | .null | .bool _ | .integer _ | .text _ => []
  | .number x => [x]
  | .array items => floatsOfItems items
  | .object ms => floatsOfMembers ms

/-- The doubles in the items of an array. -/
def floatsOfItems : List Value → List Float
  | [] => []
  | v :: vs => v.floats ++ floatsOfItems vs

/-- The doubles in the members of an object. -/
def floatsOfMembers : List (String × Value) → List Float
  | [] => []
  | (_, v) :: ms => v.floats ++ floatsOfMembers ms

end

mutual

/-- How many arrays and objects are open at once in the text of a value. -/
def depth : Value → ℕ
  | .null | .bool _ | .integer _ | .number _ | .text _ => 0
  | .array items => depthOfItems items + 1
  | .object ms => depthOfMembers ms + 1

/-- How many are open at once in the items of an array. -/
def depthOfItems : List Value → ℕ
  | [] => 0
  | v :: vs => max v.depth (depthOfItems vs)

/-- How many are open at once in the members of an object. -/
def depthOfMembers : List (String × Value) → ℕ
  | [] => 0
  | (_, v) :: ms => max v.depth (depthOfMembers ms)

end

theorem mem_floatsOfItems {items : List Value} {v : Value} {x : Float} (hv : v ∈ items)
    (hx : x ∈ v.floats) : x ∈ floatsOfItems items := by
  induction items with
  | nil => cases hv
  | cons w items ih =>
    rw [floatsOfItems, List.mem_append]
    rcases List.mem_cons.1 hv with rfl | hv
    · exact .inl hx
    · exact .inr (ih hv)

theorem mem_floatsOfMembers {ms : List (String × Value)} {m : String × Value} {x : Float}
    (hm : m ∈ ms) (hx : x ∈ m.2.floats) : x ∈ floatsOfMembers ms := by
  induction ms with
  | nil => cases hm
  | cons n ms ih =>
    rw [floatsOfMembers, List.mem_append]
    rcases List.mem_cons.1 hm with rfl | hm
    · exact .inl hx
    · exact .inr (ih hm)

theorem depth_le_depthOfItems {items : List Value} {v : Value} (hv : v ∈ items) :
    v.depth ≤ depthOfItems items := by
  induction items with
  | nil => cases hv
  | cons w items ih =>
    rw [depthOfItems]
    rcases List.mem_cons.1 hv with rfl | hv
    · exact le_max_left ..
    · exact (ih hv).trans (le_max_right ..)

theorem depth_le_depthOfMembers {ms : List (String × Value)} {m : String × Value} (hm : m ∈ ms) :
    m.2.depth ≤ depthOfMembers ms := by
  induction ms with
  | nil => cases hm
  | cons n ms ih =>
    rw [depthOfMembers]
    rcases List.mem_cons.1 hm with rfl | hm
    · exact le_max_left ..
    · exact (ih hm).trans (le_max_right ..)

end Value

/-! ## Members in the order of their keys -/

section

variable {α : Type} {key : String} {a : α} {l : List (String × α)}

/-- A member with the least key is put in front. -/
theorem insertMember_of_lt (h : ∀ m ∈ l, key < m.1) : insertMember key a l = (key, a) :: l := by
  cases l with
  | nil => rfl
  | cons m l =>
    unfold insertMember
    rw [if_pos (h m List.mem_cons_self)]

/-- A member with the greatest key is put at the end. -/
theorem insertMember_of_gt (h : ∀ m ∈ l, m.1 < key) : insertMember key a l = l ++ [(key, a)] := by
  induction l with
  | nil => rfl
  | cons m l ih =>
    have hlt := h m List.mem_cons_self
    unfold insertMember
    rw [if_neg (by grind), if_neg (by grind), ih fun n hn => h n (List.mem_cons_of_mem m hn)]
    rfl

theorem mem_insertMember {m : String × α} (h : m ∈ insertMember key a l) : m = (key, a) ∨ m ∈ l := by
  fun_induction insertMember key a l <;> grind

end

/-! ## What is read -/

namespace Tree

mutual

/-- Every value that is read is well-formed. -/
theorem wellFormed_of_value? {d : ℕ} {v : Value} : ∀ {t : Tree}, value? d t = some v → v.WellFormed
  | .null, h => by
    obtain rfl := Option.some.inj h
    exact .null
  | .bool b, h => by
    obtain rfl := Option.some.inj h
    exact .bool b
  | .numeral n, h => by
    rw [value?] at h
    split at h
    · next k hk =>
      obtain rfl := Option.some.inj h
      obtain ⟨hlo, hhi⟩ := Decimal.Numeral.bounds_of_integer? hk
      exact .integer hlo hhi
    · obtain ⟨x, _, rfl⟩ := Option.map_eq_some_iff.1 h
      exact .number x
  | .string ps, h => by
    rw [value?] at h
    obtain ⟨cs, _, rfl⟩ := Option.map_eq_some_iff.1 h
    exact .text _
  | .array items, h => by
    cases d with
    | zero => simp [value?] at h
    | succ d =>
      rw [value?] at h
      obtain ⟨vs, hvs, rfl⟩ := Option.map_eq_some_iff.1 h
      exact .array (wellFormed_of_values? hvs)
  | .object ms, h => by
    cases d with
    | zero => simp [value?] at h
    | succ d =>
      rw [value?] at h
      obtain ⟨l, hl, rfl⟩ := Option.map_eq_some_iff.1 h
      obtain ⟨hkeys, hvalues⟩ := wellFormed_of_members? hl
      exact .object hkeys hvalues

/-- The items of an array that is read. -/
theorem wellFormed_of_values? {d : ℕ} {vs : List Value} :
    ∀ {ts : List Tree}, values? d ts = some vs → ∀ v ∈ vs, v.WellFormed
  | [], h => by
    obtain rfl := Option.some.inj h
    exact List.forall_mem_nil _
  | t :: ts, h => by
    simp only [values?, Option.bind_eq_bind, Option.bind_eq_some_iff] at h
    obtain ⟨v, hv, vs', hvs, heq⟩ := h
    obtain rfl := Option.some.inj heq
    exact List.forall_mem_cons.2 ⟨wellFormed_of_value? hv, wellFormed_of_values? hvs⟩

/-- The members of an object that is read: the keys are put in order, whichever they were in. -/
theorem wellFormed_of_members? {d : ℕ} {l : List (String × Value)} :
    ∀ {ms : List (List Piece × Tree)}, members? d ms = some l →
      (l.map Prod.fst).Pairwise (· < ·) ∧ ∀ m ∈ l, m.2.WellFormed
  | [], h => by
    obtain rfl := Option.some.inj h
    exact ⟨.nil, List.forall_mem_nil _⟩
  | (k, t) :: ms, h => by
    simp only [members?, Option.bind_eq_bind, Option.bind_eq_some_iff] at h
    obtain ⟨key, _, v, hv, rest, hrest, heq⟩ := h
    obtain ⟨hkeys, hvalues⟩ := wellFormed_of_members? hrest
    obtain rfl := Option.some.inj heq
    split
    · exact ⟨hkeys, hvalues⟩
    · refine ⟨Extensions.sorted_insertMember hkeys, fun m hm => ?_⟩
      rcases mem_insertMember hm with rfl | hm
      · exact wellFormed_of_value? hv
      · exact hvalues m hm

end

end Tree

/-! ## Reading what is written -/

/-- Where each element leads to something, these things make up a list. -/
theorem exists_forall₂ {α β : Type} {R : α → β → Prop} {l : List α}
    (h : ∀ a ∈ l, ∃ b, R a b) : ∃ m, List.Forall₂ R l m := by
  induction l with
  | nil => exact ⟨[], .nil⟩
  | cons a l ih =>
    obtain ⟨b, hb⟩ := h a List.mem_cons_self
    obtain ⟨m, hm⟩ := ih fun a' ha' => h a' (List.mem_cons_of_mem a ha')
    exact ⟨b :: m, .cons hb hm⟩

theorem writeItems_eq (items : List Value) : writeItems items = items.map write := by
  induction items with
  | nil => rfl
  | cons v items ih => rw [writeItems, ih, List.map_cons]

theorem writeMembers_eq (ms : List (String × Value)) :
    writeMembers ms = ms.map fun m => writeMember m.1 (write m.2) := by
  induction ms with
  | nil => rfl
  | cons m ms ih => rw [writeMembers, ih, List.map_cons]

namespace Tree

variable {d : ℕ}

/-- Trees are read as the items that each of them is read as. -/
theorem values?_eq_some {items : List Value} {ts : List Tree}
    (h : List.Forall₂ (fun v t => value? d t = some v) items ts) :
    values? d ts = some items := by
  induction h with
  | nil => rfl
  | cons hhead _ ih =>
    rw [values?, hhead, ih]
    rfl

/-- The members of an object in the order of their keys are read as they are. -/
theorem members?_eq_some {ms : List (String × Value)} {ns : List (List Piece × Tree)}
    (hkeys : (ms.map Prod.fst).Pairwise (· < ·))
    (h : List.Forall₂ (fun m n => n.1 = m.1.toList.map .char ∧ value? d n.2 = some m.2) ms ns) :
    members? d ns = some ms := by
  induction h with
  | nil => rfl
  | @cons m n ms ns hhead _ ih =>
    obtain ⟨key, t⟩ := n
    obtain ⟨rfl, hvalue⟩ := hhead
    rw [List.map_cons, List.pairwise_cons] at hkeys
    have hlt : ∀ m' ∈ ms, m.1 < m'.1 := fun m' hm' => hkeys.1 _ (List.mem_map_of_mem hm')
    have hnew : (ms.any fun m' => m'.1 = m.1) = false := by
      rw [List.any_eq_false]
      intro m' hm'
      have := hlt m' hm'
      grind
    rw [members?, Piece.join_map_char, hvalue, ih hkeys.2]
    dsimp only [Option.bind_eq_bind, Option.bind_some]
    -- the members are read from the last to the first, and each is put before all later ones
    rw [String.ofList_toList, hnew, insertMember_of_lt hlt]
    rfl

/-- The members of what is read as an object. -/
theorem object?_of_value? {t : Tree} {ms : List (String × Value)}
    (h : value? d t = some (.object ms)) : object? d t = some ms := by
  cases t with
  | object ns =>
    cases d with
    | zero => simp [value?] at h
    | succ d =>
      rw [value?] at h
      obtain ⟨ms', hms', heq⟩ := Option.map_eq_some_iff.1 h
      obtain rfl := Value.object.inj heq
      exact hms'
  | null => simp [value?] at h
  | bool b => simp [value?] at h
  | numeral n =>
    rw [value?] at h
    split at h <;> simp at h
  | string ps => simp [value?] at h
  | array items =>
    cases d <;> simp [value?] at h

end Tree

/-- A well-formed value is written as a tree that is read as the value. -/
theorem Value.WellFormed.exists_tree {v : Value} (h : v.WellFormed) {d : ℕ} (hdepth : v.depth ≤ d)
    (hfloats : ∀ x ∈ v.floats, Recovers x) :
    ∃ t : Tree, t.WrittenAs (write v) ∧ t.value? d = some v := by
  induction h generalizing d with
  | null => exact ⟨.null, Tree.writtenAs_null, rfl⟩
  | bool b =>
    cases b with
    | true => exact ⟨.bool true, Tree.writtenAs_true, rfl⟩
    | false => exact ⟨.bool false, Tree.writtenAs_false, rfl⟩
  | @integer n hlo hhi =>
    refine ⟨_, Tree.writtenAs_integer n, ?_⟩
    rw [Tree.value?, Tree.integer?_integerNumeral hlo hhi]
  | number x =>
    obtain ⟨b, hb, hfloat⟩ :=
      Option.bind_eq_some_iff.1 (recovers_iff.1 (hfloats x (by simp [floats])))
    refine ⟨_, Tree.writtenAs_float hb, ?_⟩
    rw [Tree.value?, Decimal.Style.integer?_numeral, hfloat]
    rfl
  | text s =>
    refine ⟨_, Tree.writtenAs_text s.toList, ?_⟩
    rw [Tree.value?, Piece.join_map_char, Option.map_some, String.ofList_toList]
  | @array items hitems ih =>
    -- the array is open while its items are read, so that one less may be opened in them
    obtain ⟨d, rfl⟩ : ∃ d', d = d' + 1 := ⟨d - 1, by rw [depth] at hdepth; omega⟩
    obtain ⟨ts, hts⟩ := exists_forall₂ fun v hv =>
      ih v hv (d := d) ((depth_le_depthOfItems hv).trans (Nat.le_of_succ_le_succ hdepth))
        fun x hx => hfloats x (mem_floatsOfItems hv hx)
    refine ⟨.array ts, ?_, ?_⟩
    · rw [write, writeItems_eq]
      exact Tree.writtenAs_array (List.forall₂_map_left_iff.2 (hts.imp fun _ _ h => h.1))
    · rw [Tree.value?, Tree.values?_eq_some (hts.imp fun _ _ h => h.2)]
      rfl
  | @object ms hkeys hvalues ih =>
    obtain ⟨d, rfl⟩ : ∃ d', d = d' + 1 := ⟨d - 1, by rw [depth] at hdepth; omega⟩
    have hmember : ∀ m ∈ ms, ∃ n : List Piece × Tree, n.1 = m.1.toList.map .char
        ∧ n.2.WrittenAs (write m.2) ∧ n.2.value? d = some m.2 := fun m hm => by
      obtain ⟨t, ht⟩ := ih m hm (d := d)
        ((depth_le_depthOfMembers hm).trans (Nat.le_of_succ_le_succ hdepth))
        fun x hx => hfloats x (mem_floatsOfMembers hm hx)
      exact ⟨(m.1.toList.map .char, t), rfl, ht⟩
    obtain ⟨ns, hns⟩ := exists_forall₂ hmember
    refine ⟨.object ns, ?_, ?_⟩
    · rw [write, writeMembers_eq]
      refine Tree.writtenAs_object (List.forall₂_map_left_iff.2 (hns.imp fun m n h => ?_))
      obtain ⟨key, t⟩ := n
      obtain ⟨rfl, hwritten, _⟩ := h
      exact hwritten.member m.1
    · rw [Tree.value?, Tree.members?_eq_some hkeys (hns.imp fun _ _ h => ⟨h.1, h.2.2⟩)]
      rfl

end AlertRegistry.Json
