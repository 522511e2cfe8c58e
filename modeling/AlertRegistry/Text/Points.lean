/-!
# The code points a pattern search sees

A pattern search reads its operands as sequences of code points that end at the first U+0000. The
two noncharacters U+FFFE and U+FFFF are read as the replacement character U+FFFD, so a search does
not tell the three apart. Bytes that need not be well-formed text are read by the same rule: a lead
byte takes all continuation bytes that follow it, and a sequence that yields a code point below
U+0080, a surrogate or one of the two noncharacters reads as U+FFFD.
-/

namespace AlertRegistry.Text

/-- The code point as which a pattern search reads a character. -/
def searchPoint (c : Char) : Nat :=
  if c.toNat = 0xFFFE ∨ c.toNat = 0xFFFF then 0xFFFD else c.toNat

/-- The code points of a text up to its first U+0000. -/
def searchPoints (cs : List Char) : List Nat :=
  (cs.takeWhile fun c => c.toNat != 0).map searchPoint

theorem searchPoints_cons {c : Char} (cs : List Char) (h : c.toNat ≠ 0) :
    searchPoints (c :: cs) = searchPoint c :: searchPoints cs := by
  simp [searchPoints, h]

/-- The bits that a lead byte contributes to its code point. -/
def leadBits (b : Nat) : Nat :=
  if b < 0xE0 then b % 0x20
  else if b < 0xF0 then b % 0x10
  else if b < 0xF8 then b % 8
  else if b < 0xFC then b % 4
  else if b < 0xFE then b % 2
  else 0

/-- The code points of a byte sequence up to its first zero byte. -/
def searchPointsOfBytes (bs : List UInt8) : List Nat :=
  start bs
where
  /-- Reads from the first byte of a character on. -/
  start : List UInt8 → List Nat
    | [] => []
    | b :: bs =>
      if b.toNat = 0 then []
      else if b.toNat < 0xC0 then b.toNat :: start bs
      else follow (leadBits b.toNat) bs
  /-- Takes continuation bytes into the code point read so far. -/
  follow (point : Nat) : List UInt8 → List Nat
    | [] => [settle point]
    | b :: bs =>
      if 0x80 ≤ b.toNat ∧ b.toNat < 0xC0 then
        follow ((point * 64 + b.toNat % 64) % 0x100000000) bs
      else if b.toNat = 0 then [settle point]
      else if b.toNat < 0xC0 then settle point :: b.toNat :: start bs
      else settle point :: follow (leadBits b.toNat) bs
  /-- The code point that a finished sequence stands for. -/
  settle (point : Nat) : Nat :=
    if point < 0x80 ∨ (0xD800 ≤ point ∧ point < 0xE000) ∨ point = 0xFFFE ∨ point = 0xFFFF then
      0xFFFD
    else point

end AlertRegistry.Text
