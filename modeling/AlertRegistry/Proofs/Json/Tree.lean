import AlertRegistry.Json.Tree
import AlertRegistry.Proofs.Json.Token

/-!
# The trees of tokens

`Builds ts t` says that the tokens `ts` are those of one value, the tree `t`, inside whatever is
open. The tokens of an array build the array of what its items build (`builds_array`), and those of
an object the object of what its members build (`builds_object`).
-/

namespace AlertRegistry.Json

namespace Tree

/-- The tokens are those of one value. -/
def Builds (ts : List Token) (t : Tree) : Prop :=
  ∀ frames, ts.foldlM step (.value frames) = some (.after t frames)

theorem Builds.ofTokens? {ts : List Token} {t : Tree} (h : Builds ts t) :
    ofTokens? ts = some t := by
  unfold Tree.ofTokens?
  rw [h []]

theorem builds_null : Builds [.null] .null :=
  fun _ => rfl

theorem builds_bool (b : Bool) : Builds [.bool b] (.bool b) :=
  fun _ => rfl

theorem builds_string (ps : List Piece) : Builds [.string ps] (.string ps) :=
  fun _ => rfl

theorem builds_numeral (n : Decimal.Numeral) : Builds [.numeral n] (.numeral n) :=
  fun _ => rfl

/-! ## Elements one after the other -/

/-- Elements with commas between them are read up to the mark that closes them, where `expects` says
that an element comes next and `has` that one was just read; both list those before it, the last
first. -/
theorem foldlM_separated {α : Type} {Reads : List Token → α → Prop} (expects : List α → State)
    (has : α → List α → State) (closed : List α → State) (close : Token)
    (hread : ∀ ts a before, Reads ts a → ts.foldlM step (expects before) = some (has a before))
    (hcomma : ∀ a before, step (has a before) .comma = some (expects (a :: before)))
    (hclose : ∀ a before, step (has a before) close = some (closed (a :: before).reverse))
    {l : List (List Token)} {elements : List α} (h : List.Forall₂ Reads l elements) (hne : l ≠ [])
    (before : List α) :
    (separatedTokens l ++ [close]).foldlM step (expects before)
      = some (closed (before.reverse ++ elements)) := by
  unfold separatedTokens
  induction h generalizing before with
  | nil => exact absurd rfl hne
  | @cons ts a l elements hhead htail ih =>
    cases htail with
    | nil =>
      simp only [List.intersperse_singleton, List.flatten_cons, List.flatten_nil, List.append_nil]
      rw [List.foldlM_append, hread _ _ _ hhead]
      show (step (has a before) close).bind some = _
      rw [hclose, List.reverse_cons]
      rfl
    | cons _ _ =>
      simp only [List.intersperse_cons_cons, List.flatten_cons] at ih ⊢
      rw [List.append_assoc, List.foldlM_append, hread _ _ _ hhead]
      -- after the comma the reader is where it was, with one more element behind it
      have hrest := ih (List.cons_ne_nil _ _) (a :: before)
      rw [List.reverse_cons, List.append_assoc] at hrest
      show (step (has a before) .comma).bind _ = _
      rw [hcomma]
      exact hrest

/-! ## Arrays -/

/-- A value has a first token, which is not the end of an array. -/
theorem Builds.exists_cons {ts : List Token} {t : Tree} (h : Builds ts t) :
    ∃ u us, ts = u :: us ∧ u ≠ .closeArray := by
  cases ts with
  | nil => cases h []
  | cons u us =>
    refine ⟨u, us, rfl, ?_⟩
    rintro rfl
    cases h []

/-- An item may also stand first in an array. -/
theorem step_firstItem {u : Token} (hu : u ≠ .closeArray) (frames : List Frame) :
    step (.firstItem frames) u = step (.value (.array [] :: frames)) u := by
  cases u with
  | closeArray => exact absurd rfl hu
  | _ => rfl

/-- The tokens of an array. -/
theorem builds_array {l : List (List Token)} {items : List Tree}
    (h : List.Forall₂ Builds l items) :
    Builds (.openArray :: separatedTokens l ++ [.closeArray]) (.array items) := by
  intro frames
  cases h with
  | nil => rfl
  | @cons ts t l items hhead htail =>
    have hitems := foldlM_separated (fun before => .value (.array before :: frames))
      (fun t before => .after t (.array before :: frames)) (fun items => .after (.array items) frames)
      .closeArray (fun _ _ _ h => h _) (fun _ _ => rfl) (fun _ _ => rfl) (.cons hhead htail)
      (List.cons_ne_nil _ _) []
    obtain ⟨u, us, rfl, hu⟩ := hhead.exists_cons
    refine Eq.trans ?_ hitems
    -- both read the first token of the first item, the one after the bracket and the other not
    obtain ⟨rest, hrest⟩ : ∃ rest, separatedTokens ((u :: us) :: l) ++ [Token.closeArray]
        = u :: rest := by
      cases htail <;> exact ⟨_, rfl⟩
    rw [List.cons_append, hrest]
    show (u :: rest).foldlM step (.firstItem frames) = _
    rw [List.foldlM_cons, List.foldlM_cons, step_firstItem hu]

/-! ## Objects -/

/-- The tokens are those of a member: its key, a colon and those of its value. -/
def BuildsMember (ts : List Token) (m : List Piece × Tree) : Prop :=
  ∃ us, ts = .string m.1 :: .colon :: us ∧ Builds us m.2

theorem Builds.member {us : List Token} {t : Tree} (h : Builds us t) (k : List Piece) :
    BuildsMember (.string k :: .colon :: us) (k, t) :=
  ⟨us, rfl, h⟩

theorem BuildsMember.foldlM {ts : List Token} {m : List Piece × Tree} (h : BuildsMember ts m)
    (ms : List (List Piece × Tree)) (frames : List Frame) :
    ts.foldlM step (.key ms frames) = some (.after m.2 (.object ms m.1 :: frames)) := by
  obtain ⟨us, rfl, hus⟩ := h
  exact hus _

/-- The tokens of an object. -/
theorem builds_object {l : List (List Token)} {ms : List (List Piece × Tree)}
    (h : List.Forall₂ BuildsMember l ms) :
    Builds (.openObject :: separatedTokens l ++ [.closeObject]) (.object ms) := by
  intro frames
  cases h with
  | nil => rfl
  | cons hhead htail =>
    have hmembers := foldlM_separated (fun before => .key before frames)
      (fun m before => .after m.2 (.object before m.1 :: frames))
      (fun ms => .after (.object ms) frames) .closeObject (fun _ _ _ h => h.foldlM _ _)
      (fun _ _ => rfl) (fun _ _ => rfl) (.cons hhead htail) (List.cons_ne_nil _ _) []
    obtain ⟨us, rfl, _⟩ := hhead
    -- the first key is taken as any further one
    refine Eq.trans ?_ hmembers
    cases htail <;> rfl

end Tree

/-! ## Reading a document -/

/-- A document is read as the tree of what it was written from. -/
theorem Tree.ofString?_ofList {cs : List Char} {ts : List Token} {t : Tree} (hs : Spells cs ts)
    (hb : Tree.Builds ts t) : Tree.ofString? (String.ofList cs) = some t := by
  unfold Tree.ofString?
  rw [String.toList_ofList, hs.ofChars?, Option.bind_some, hb.ofTokens?]

/-- Pieces that are characters fit together. -/
@[simp] theorem Piece.join_map_char (cs : List Char) : Piece.join (cs.map .char) = some cs := by
  induction cs with
  | nil => rfl
  | cons c cs ih =>
    rw [List.map_cons, Piece.join, ih]
    rfl

/-- A text is read as itself. -/
theorem Tree.text?_string (s : String) : (Tree.string (s.toList.map .char)).text? = some s := by
  unfold Tree.text?
  dsimp only
  rw [Piece.join_map_char, Option.map_some, String.ofList_toList]

/-- A member is put under its name. -/
theorem Tree.placeMembers_cons {names : List String} {name : String} {i : ℕ} {t : Tree}
    {ms : List (List Piece × Tree)} {slots : List (Option Tree)}
    (hname : names.idxOf? name = some i) (hslot : slots[i]? = some none) :
    placeMembers names ((name.toList.map .char, t) :: ms) slots
      = placeMembers names ms (slots.set i (some t)) := by
  rw [placeMembers, Piece.join_map_char, Option.map_some, String.ofList_toList]
  dsimp only [Option.bind_eq_bind, Option.bind_some]
  rw [hname]
  dsimp only
  rw [hslot]

end AlertRegistry.Json
