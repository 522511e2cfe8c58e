import AlertRegistry.Decimal.Numeral
import AlertRegistry.Text.Hex

/-!
# Tokens of a JSON text

A JSON text is a sequence of punctuation marks, literals, numerals and strings with blanks (space,
tab, line feed, carriage return) between them. A string is kept as its pieces: an escape may name
one half of a surrogate pair, and whether the halves fit together is only asked when the string is
used (`Piece.join`). `Token.ofChars?` splits a text into tokens; it refuses leading zeros, bare
control characters in strings and everything that begins no token.
-/

namespace AlertRegistry.Json

/-- A piece of a string: a character, or one half of a surrogate pair given by an escape. -/
inductive Piece where
  /-- A character. -/
  | char (c : Char)
  /-- A UTF-16 unit between U+D800 and U+DFFF. -/
  | surrogate (unit : Nat)
deriving DecidableEq, Repr

namespace Piece

/-- The piece that the code of an escape names. -/
def ofCode (n : Nat) : Piece :=
  if 0xD800 ≤ n ∧ n < 0xE000 then surrogate n else char (Char.ofNat n)

/-- The characters of a string, or `none` if a half of a surrogate pair stands alone. -/
def join : List Piece → Option (List Char)
  | [] => some []
  | char c :: ps => (join ps).map (c :: ·)
  | surrogate hi :: surrogate lo :: ps =>
    if hi < 0xDC00 ∧ 0xDC00 ≤ lo then
      (join ps).map (Char.ofNat (0x10000 + (hi - 0xD800) * 0x400 + (lo - 0xDC00)) :: ·)
    else none
  | surrogate _ :: _ => none

end Piece

/-- A token of a JSON text. -/
inductive Token where
  /-- An opening brace. -/
  | openObject
  /-- A closing brace. -/
  | closeObject
  /-- An opening bracket. -/
  | openArray
  /-- A closing bracket. -/
  | closeArray
  /-- A colon. -/
  | colon
  /-- A comma. -/
  | comma
  /-- The literal `null`. -/
  | null
  /-- The literal `true` or `false`. -/
  | bool (b : Bool)
  /-- A number. -/
  | numeral (n : Decimal.Numeral)
  /-- A string. -/
  | string (ps : List Piece)
deriving DecidableEq, Repr

/-- The characters that may stand between tokens. -/
def isSpace (c : Char) : Bool :=
  c = ' ' ∨ c = '\t' ∨ c = '\n' ∨ c = '\r'

/-- The character that a one-letter escape names. -/
def escaped? : Char → Option Char
  | '"' => some '"'
  | '\\' => some '\\'
  | '/' => some '/'
  | 'b' => some '\x08'
  | 'f' => some '\x0c'
  | 'n' => some '\n'
  | 'r' => some '\r'
  | 't' => some '\t'
  | _ => none

namespace Token

/-- Reads the rest of a string after its opening quote. -/
def readString : List Char → Option (List Piece × List Char)
  | [] => none
  | '"' :: cs => some ([], cs)
  | '\\' :: 'u' :: a :: b :: c :: d :: cs => do
    let (ds, _) ← Text.takeHex 4 [a, b, c, d]
    let (ps, rest) ← readString cs
    return (Piece.ofCode (Text.natOfHex ds) :: ps, rest)
  | '\\' :: e :: cs => do
    let c ← escaped? e
    let (ps, rest) ← readString cs
    return (.char c :: ps, rest)
  | c :: cs =>
    if c.toNat < 0x20 ∨ c = '\\' then none
    else do
      let (ps, rest) ← readString cs
      return (.char c :: ps, rest)

theorem length_lt_of_readString {cs rest : List Char} {ps : List Piece}
    (h : readString cs = some (ps, rest)) : rest.length < cs.length := by
  fun_induction readString cs generalizing ps rest <;>
    simp_all [Option.bind_eq_some_iff] <;> grind

/-- Reads a nonempty run of digits. -/
def readDigits (cs : List Char) : Option (List Char × List Char) :=
  let ds := cs.takeWhile Char.isDigit
  if ds.isEmpty then none else some (ds, cs.dropWhile Char.isDigit)

theorem length_lt_of_readDigits {cs ds rest : List Char} (h : readDigits cs = some (ds, rest)) :
    rest.length < cs.length := by
  have hl := congrArg List.length (List.takeWhile_append_dropWhile (p := Char.isDigit) (l := cs))
  simp only [readDigits] at h
  split at h
  · contradiction
  · rename_i hne
    cases h
    have := List.length_pos_iff.2 fun h => hne (List.isEmpty_iff.2 h)
    rw [List.length_append] at hl
    omega

/-- Reads the digits before the point: a single zero, or a run that does not start with one. -/
def readWhole (cs : List Char) : Option (List Char × List Char) := do
  let (ds, rest) ← readDigits cs
  if ds.head? = some '0' ∧ ds.length ≠ 1 then none else some (ds, rest)

/-- Reads the point and the digits after it, if there is a point. -/
def readFraction : List Char → Option (Option (List Char) × List Char)
  | '.' :: cs => (readDigits cs).map fun (ds, rest) => (some ds, rest)
  | cs => some (none, cs)

/-- Reads the exponent, if there is one. -/
def readExponent : List Char → Option (Option (Bool × List Char) × List Char)
  | [] => some (none, [])
  | c :: cs =>
    if c = 'e' ∨ c = 'E' then
      match cs with
      | '-' :: cs => (readDigits cs).map fun (ds, rest) => (some (true, ds), rest)
      | '+' :: cs => (readDigits cs).map fun (ds, rest) => (some (false, ds), rest)
      | cs => (readDigits cs).map fun (ds, rest) => (some (false, ds), rest)
    else some (none, c :: cs)

/-- Reads a number after its sign. -/
def readNumeral (negative : Bool) (cs : List Char) : Option (Token × List Char) := do
  let (whole, cs) ← readWhole cs
  let (fraction, cs) ← readFraction cs
  let (exponent, cs) ← readExponent cs
  return (.numeral { negative, whole, fraction, exponent }, cs)

/-- Reads the token that begins with the character `c`. -/
def readToken (c : Char) (cs : List Char) : Option (Token × List Char) :=
  match c, cs with
  | '\x7b', cs => some (.openObject, cs)
  | '\x7d', cs => some (.closeObject, cs)
  | '[', cs => some (.openArray, cs)
  | ']', cs => some (.closeArray, cs)
  | ':', cs => some (.colon, cs)
  | ',', cs => some (.comma, cs)
  | 'n', 'u' :: 'l' :: 'l' :: cs => some (.null, cs)
  | 't', 'r' :: 'u' :: 'e' :: cs => some (.bool true, cs)
  | 'f', 'a' :: 'l' :: 's' :: 'e' :: cs => some (.bool false, cs)
  | '"', cs => (readString cs).map fun (ps, rest) => (.string ps, rest)
  | '-', cs => readNumeral true cs
  | c, cs => readNumeral false (c :: cs)

theorem length_lt_of_readWhole {cs ds rest : List Char} (h : readWhole cs = some (ds, rest)) :
    rest.length < cs.length := by
  simp only [readWhole, Option.bind_eq_bind, Option.bind_eq_some_iff] at h
  obtain ⟨⟨ds', rest'⟩, hd, h⟩ := h
  split at h
  · contradiction
  · cases h; exact length_lt_of_readDigits hd

theorem length_le_of_readFraction {cs rest : List Char} {f : Option (List Char)}
    (h : readFraction cs = some (f, rest)) : rest.length ≤ cs.length := by
  simp only [readFraction] at h
  split at h
  · obtain ⟨⟨ds, r⟩, hd, he⟩ := Option.map_eq_some_iff.1 h
    cases he
    have := length_lt_of_readDigits hd
    simp only [List.length_cons]; omega
  · cases h; exact Nat.le_refl _

theorem length_le_of_readExponent {cs rest : List Char} {e : Option (Bool × List Char)}
    (h : readExponent cs = some (e, rest)) : rest.length ≤ cs.length := by
  simp only [readExponent] at h
  split at h
  · cases h; exact Nat.le_refl _
  · split at h
    · split at h <;>
      · obtain ⟨⟨ds, r⟩, hd, he⟩ := Option.map_eq_some_iff.1 h
        cases he
        have := length_lt_of_readDigits hd
        simp only [List.length_cons] at *; omega
    · cases h; exact Nat.le_refl _

theorem length_lt_of_readNumeral {negative : Bool} {cs rest : List Char} {t : Token}
    (h : readNumeral negative cs = some (t, rest)) : rest.length < cs.length := by
  simp only [readNumeral, Option.bind_eq_bind, Option.bind_eq_some_iff] at h
  obtain ⟨⟨w, c₁⟩, hw, ⟨f, c₂⟩, hf, ⟨e, c₃⟩, he, h⟩ := h
  cases h
  have h₁ := length_lt_of_readWhole hw
  have h₂ := length_le_of_readFraction hf
  have h₃ := length_le_of_readExponent he
  simp only at *
  omega

theorem length_le_of_readToken {c : Char} {cs rest : List Char} {t : Token}
    (h : readToken c cs = some (t, rest)) : rest.length ≤ cs.length := by
  simp only [readToken] at h
  split at h
  case h_10 =>
    obtain ⟨⟨ps, r⟩, hs, he⟩ := Option.map_eq_some_iff.1 h
    cases he
    exact Nat.le_of_lt (length_lt_of_readString hs)
  case h_11 => exact Nat.le_of_lt (length_lt_of_readNumeral h)
  case h_12 => exact Nat.le_of_lt_succ (length_lt_of_readNumeral h)
  all_goals cases h; grind

/-- Splits a text into its tokens. -/
def ofChars? : List Char → Option (List Token)
  | [] => some []
  | c :: cs =>
    if isSpace c then ofChars? cs
    else
      match h : readToken c cs with
      | none => none
      | some (t, rest) =>
        have : rest.length ≤ cs.length := length_le_of_readToken h
        (ofChars? rest).map (t :: ·)
termination_by cs => cs.length

end Token

end AlertRegistry.Json
