import AlertRegistry.Json.Printer
import AlertRegistry.Json.Token
import AlertRegistry.Proofs.Decimal.Style

/-!
# What is written, split into tokens

`Spells cs ts` says that the characters `cs` begin with the tokens `ts`, whatever follows that does
not continue a number. The characters of marks, texts and numerals spell their tokens, and spelling
is put together (`Spells.append`), so that a document is split by following how it was written.
-/

namespace AlertRegistry.Json

open Decimal (Numeral)
open Text (EndsRun)

namespace Token

/-! ## Strings -/

section

variable (tail : List Char)

/-- A letter after a backslash. -/
theorem readString_letter {e c : Char} (he : escaped? e = some c) (hu : e ≠ 'u') :
    readString ('\\' :: e :: tail)
      = (readString tail).map fun (ps, rest) => (.char c :: ps, rest) := by
  rw [readString]
  · rw [he]
    cases readString tail <;> rfl
  · intro _ _ _ _ _ h
    exact absurd h hu

/-- The codes of controls name them. -/
theorem ofCode_hex : ∀ n : Fin 32,
    (Text.takeHex 4 ['0', '0', Nat.digitChar (n / 16), Nat.digitChar (n % 16)]).map
      (fun p => Piece.ofCode (Text.natOfHex p.1)) = some (.char (Char.ofNat n)) := by
  decide

/-- The code of a control after a backslash. -/
theorem readString_control {c : Char} (hc : c.toNat < 0x20) :
    readString ('\\' :: 'u' :: '0' :: '0' :: Nat.digitChar (c.toNat / 16)
        :: Nat.digitChar (c.toNat % 16) :: tail)
      = (readString tail).map fun (ps, rest) => (.char c :: ps, rest) := by
  obtain ⟨⟨ds, rest⟩, htake, hpiece⟩ := Option.map_eq_some_iff.1 (ofCode_hex ⟨c.toNat, hc⟩)
  dsimp only at htake hpiece
  rw [Char.ofNat_toNat] at hpiece
  rw [readString, htake]
  show (readString tail).bind (fun p => some (Piece.ofCode (Text.natOfHex ds) :: p.1, p.2)) = _
  rw [hpiece]
  cases readString tail <;> rfl

/-- A character that stands for itself. -/
theorem readString_plain {c : Char} (hquote : c ≠ '"') (hslash : c ≠ '\\')
    (hc : ¬ c.toNat < 0x20) : readString (c :: tail)
      = (readString tail).map fun (ps, rest) => (.char c :: ps, rest) := by
  rw [readString]
  · rw [if_neg (not_or.2 ⟨hc, hslash⟩)]
    cases readString tail <;> rfl
  · exact hquote
  · intro _ _ _ _ _ h
    exact absurd h hslash
  · intro _ _ h
    exact absurd h hslash

/-- A written character is read as itself. -/
theorem readString_escape (c : Char) : readString (escape c ++ tail)
    = (readString tail).map fun (ps, rest) => (.char c :: ps, rest) := by
  have hletter : ∀ {e : Char}, escaped? e = some c → e ≠ 'u' → readString (['\\', e] ++ tail)
      = (readString tail).map fun (ps, rest) => (.char c :: ps, rest) := readString_letter tail
  unfold escape
  -- the seven characters that have a letter of their own
  iterate 7
    split
    · next h => exact hletter (by rw [h]; rfl) (by decide)
  split
  · next hcontrol => exact readString_control tail hcontrol
  · next hquote hslash _ _ _ _ _ hplain => exact readString_plain tail hquote hslash hplain

/-- A written text is read up to its closing quote. -/
theorem readString_text (cs : List Char) :
    readString (cs.flatMap escape ++ '"' :: tail) = some (cs.map .char, tail) := by
  induction cs with
  | nil =>
    show readString ('"' :: tail) = _
    rw [readString]
    rfl
  | cons c cs ih =>
    rw [List.flatMap_cons, List.append_assoc, readString_escape, ih]
    rfl

end

/-! ## Numerals -/

/-- Nothing stands at the front that would continue a number. -/
def EndsNumeral (cs : List Char) : Prop :=
  ∀ c ∈ cs.head?, c.isDigit = false ∧ c ≠ '.' ∧ c ≠ 'e' ∧ c ≠ 'E'

theorem EndsNumeral.endsRun {cs : List Char} (h : EndsNumeral cs) : EndsRun cs :=
  fun c hc => (h c hc).1

theorem endsNumeral_cons {c : Char} {cs : List Char}
    (h : c.isDigit = false ∧ c ≠ '.' ∧ c ≠ 'e' ∧ c ≠ 'E') : EndsNumeral (c :: cs) := by
  intro d hd
  cases hd
  exact h

theorem readDigits_append {ds rest : List Char} (hne : ds ≠ [])
    (hd : ∀ c ∈ ds, c.isDigit = true) (hr : EndsRun rest) :
    readDigits (ds ++ rest) = some (ds, rest) := by
  unfold readDigits
  rw [Text.takeWhile_isDigit_append hd hr, Text.dropWhile_isDigit_append hd hr]
  exact if_neg (mt List.isEmpty_iff.1 hne)

section

variable {n : Numeral} (hn : n.WellFormed) {rest : List Char}

include hn

theorem readWhole_append (hr : EndsRun rest) :
    readWhole (n.whole ++ rest) = some (n.whole, rest) := by
  unfold readWhole
  rw [readDigits_append hn.whole_ne_nil hn.whole hr]
  exact if_neg fun h => h.2 (hn.whole_head h.1)

theorem readFraction_append (hr : EndsRun rest) (hpoint : rest.head? ≠ some '.') :
    readFraction (n.fractionChars ++ rest) = some (n.fraction, rest) := by
  unfold Numeral.fractionChars
  cases hfraction : n.fraction with
  | none =>
    show readFraction rest = _
    unfold readFraction
    split
    · exact (hpoint rfl).elim
    · rfl
  | some ds =>
    obtain ⟨hne, hd⟩ := hn.fraction ds hfraction
    show (readDigits (ds ++ rest)).map _ = _
    rw [readDigits_append hne hd hr]
    rfl

theorem readExponent_append (hr : EndsNumeral rest) :
    readExponent (n.exponentChars ++ rest) = some (n.exponent, rest) := by
  unfold Numeral.exponentChars
  cases hexponent : n.exponent with
  | none =>
    show readExponent rest = _
    cases rest with
    | nil => rfl
    | cons c rest =>
      obtain ⟨_, _, he, hE⟩ := hr c rfl
      exact if_neg (not_or.2 ⟨he, hE⟩)
  | some e =>
    obtain ⟨negative, ds⟩ := e
    obtain ⟨hne, hd⟩ := hn.exponent _ hexponent
    have hread := readDigits_append hne hd hr.endsRun
    cases negative
    all_goals
      show (readDigits (ds ++ rest)).map _ = _
      rw [hread]
      rfl

omit hn in
/-- No digit and no point stands at the front of an exponent. -/
theorem endsRun_exponentChars (hr : EndsNumeral rest) :
    EndsRun (n.exponentChars ++ rest) ∧ (n.exponentChars ++ rest).head? ≠ some '.' := by
  unfold Numeral.exponentChars
  cases n.exponent with
  | none => exact ⟨hr.endsRun, fun h => (hr '.' h).2.1 rfl⟩
  | some e =>
    refine ⟨Text.endsRun_cons rfl, fun h => ?_⟩
    exact absurd (Option.some.inj h) (by decide)

omit hn in
theorem endsRun_fractionChars (hr : EndsRun rest) : EndsRun (n.fractionChars ++ rest) := by
  unfold Numeral.fractionChars
  cases n.fraction with
  | none => exact hr
  | some ds => exact Text.endsRun_cons rfl

/-- A written numeral is read up to its end. -/
theorem readNumeral_append (hr : EndsNumeral rest) :
    readNumeral n.negative (n.sizeChars ++ rest) = some (.numeral n, rest) := by
  obtain ⟨hrun, hpoint⟩ := endsRun_exponentChars (n := n) hr
  unfold readNumeral Numeral.sizeChars
  rw [List.append_assoc, List.append_assoc, readWhole_append hn (endsRun_fractionChars hrun)]
  dsimp only [Option.bind_eq_bind, Option.bind_some]
  rw [readFraction_append hn hrun hpoint]
  dsimp only [Option.bind_some]
  rw [readExponent_append hn hr]
  rfl

/-- A numeral begins with a digit, or with a minus sign before its digits. -/
theorem exists_cons_sizeChars :
    ∃ c cs, n.sizeChars = c :: cs ∧ c.isDigit = true := by
  obtain ⟨c, cs, hcs⟩ := List.exists_cons_of_ne_nil hn.whole_ne_nil
  refine ⟨c, cs ++ (n.fractionChars ++ n.exponentChars), ?_, hn.whole c (hcs ▸ List.mem_cons_self)⟩
  unfold Numeral.sizeChars
  rw [hcs, List.cons_append]

end

theorem readToken_of_isDigit {c : Char} (hc : c.isDigit = true) (cs : List Char) :
    readToken c cs = readNumeral false (c :: cs) := by
  unfold readToken
  split
  case h_12 => rfl
  all_goals exact absurd hc (by decide)

theorem ofChars?_cons {c : Char} {cs rest : List Char} {t : Token} (hspace : isSpace c = false)
    (h : readToken c cs = some (t, rest)) :
    ofChars? (c :: cs) = (ofChars? rest).map (t :: ·) := by
  rw [ofChars?, if_neg (Bool.eq_false_iff.1 hspace)]
  split
  · next hnone =>
    rw [h] at hnone
    cases hnone
  · next hsome =>
    rw [h] at hsome
    cases hsome
    rfl

end Token

/-! ## Spelling -/

/-- The characters begin with the tokens, whatever follows that does not continue a number. -/
def Spells (cs : List Char) (ts : List Token) : Prop :=
  ∀ rest, Token.EndsNumeral rest → Token.ofChars? (cs ++ rest) = (Token.ofChars? rest).map (ts ++ ·)

theorem Spells.ofChars? {cs : List Char} {ts : List Token} (h : Spells cs ts) :
    Token.ofChars? cs = some ts := by
  have hall := h [] fun c hc => by cases hc
  rwa [List.append_nil, Token.ofChars?, Option.map_some, List.append_nil] at hall

theorem spells_nil : Spells [] [] := by
  intro rest _
  rw [List.nil_append]
  exact Option.map_id'.symm

/-- One token after the other, where a mark keeps numbers apart. -/
theorem Spells.append {cs cs' : List Char} {ts ts' : List Token} (h : Spells cs ts)
    (h' : Spells cs' ts') (hends : Token.EndsNumeral cs') : Spells (cs ++ cs') (ts ++ ts') := by
  intro rest hrest
  -- a number at the end of `cs` is not continued by `cs'`, nor by what follows if that is empty
  have hboth : Token.EndsNumeral (cs' ++ rest) := by
    cases cs' with
    | nil => exact hrest
    | cons c cs' => exact fun d hd => hends d hd
  rw [List.append_assoc, h _ hboth, h' _ hrest, Option.map_map]
  congr 1
  funext us
  exact (List.append_assoc ..).symm

/-- A mark is a token by itself. -/
theorem Spells.cons {c : Char} {t : Token} (hspace : isSpace c = false)
    (hmark : ∀ cs, Token.readToken c cs = some (t, cs)) {cs : List Char} {ts : List Token}
    (h : Spells cs ts) : Spells (c :: cs) (t :: ts) := by
  intro rest hrest
  rw [List.cons_append, Token.ofChars?_cons hspace (hmark _), h _ hrest, Option.map_map]
  rfl

/-- A token that is read whatever follows it. -/
theorem spells_token {c : Char} {cs : List Char} {t : Token} (hspace : isSpace c = false)
    (h : ∀ rest, Token.readToken c (cs ++ rest) = some (t, rest)) : Spells (c :: cs) [t] :=
  fun rest _ => Token.ofChars?_cons hspace (h rest)

/-- A text is one string. -/
theorem spells_writeText (cs : List Char) : Spells (writeText cs) [.string (cs.map .char)] := by
  refine spells_token rfl fun rest => ?_
  show (Token.readString (cs.flatMap escape ++ ['"'] ++ rest)).map _ = _
  rw [List.append_assoc, List.singleton_append, Token.readString_text]
  rfl

/-- A numeral is one number. -/
theorem spells_numeral {n : Numeral} (hn : n.WellFormed) : Spells n.chars [.numeral n] := by
  intro rest hrest
  have hread := Token.readNumeral_append hn hrest
  unfold Numeral.chars
  cases hnegative : n.negative with
  | true =>
    rw [hnegative] at hread
    exact Token.ofChars?_cons rfl hread
  | false =>
    -- without a sign the first digit makes it a number
    obtain ⟨c, cs, hcs, hc⟩ := Token.exists_cons_sizeChars hn
    rw [hnegative, hcs] at hread
    have hspace : isSpace c = false := by
      by_contra h
      simp only [isSpace, Bool.not_eq_false, decide_eq_true_eq] at h
      rcases h with rfl | rfl | rfl | rfl <;> exact absurd hc (by decide)
    rw [hcs]
    exact Token.ofChars?_cons hspace ((Token.readToken_of_isDigit hc _).trans hread)

/-- A member is its key, a colon and its value. -/
theorem spells_writeMember (key : String) {value : List Char} {ts : List Token}
    (h : Spells value ts) :
    Spells (writeMember key value) (.string (key.toList.map .char) :: .colon :: ts) :=
  (spells_writeText key.toList).append (h.cons rfl fun _ => rfl)
    (Token.endsNumeral_cons (by decide))

/-- The tokens of elements with a comma between each two of them. -/
def separatedTokens (l : List (List Token)) : List Token :=
  (l.intersperse [.comma]).flatten

theorem spells_separated {l : List (List Char)} {l' : List (List Token)}
    (h : List.Forall₂ Spells l l') : Spells (separated l) (separatedTokens l') := by
  unfold separated separatedTokens
  induction h with
  | nil => exact spells_nil
  | cons hhead htail ih =>
    cases htail with
    | nil =>
      simp only [List.intersperse_singleton, List.flatten_cons, List.flatten_nil, List.append_nil]
      exact hhead
    | cons _ _ =>
      simp only [List.intersperse_cons_cons, List.flatten_cons] at ih ⊢
      exact hhead.append (ih.cons rfl fun _ => rfl) (Token.endsNumeral_cons (by decide))

/-- An object is its members between braces. -/
theorem spells_enclose {l : List (List Char)} {l' : List (List Token)}
    (h : List.Forall₂ Spells l l') :
    Spells (enclose l) (.openObject :: separatedTokens l' ++ [.closeObject]) :=
  ((spells_separated h).append (spells_nil.cons rfl fun _ => rfl)
    (Token.endsNumeral_cons (by decide))).cons rfl fun _ => rfl

end AlertRegistry.Json
