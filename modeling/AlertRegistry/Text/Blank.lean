/-!
# White space and trimming

Names in configuration, log levels and written integers are read with the white space around them
removed. White space is the Unicode property `White_Space`: the ASCII controls U+0009 to U+000D,
the space, the next-line control, the no-break space and the blanks of the general punctuation and
CJK blocks. `trim` removes such characters from both ends and nothing in between.
-/

namespace AlertRegistry.Text

/-- A character has the Unicode property `White_Space`. -/
def isBlank (c : Char) : Bool :=
  let n := c.toNat
  (0x09 ≤ n && n ≤ 0x0D) || n == 0x20 || n == 0x85 || n == 0xA0 || n == 0x1680
    || (0x2000 ≤ n && n ≤ 0x200A) || n == 0x2028 || n == 0x2029 || n == 0x202F
    || n == 0x205F || n == 0x3000

/-- The characters without the white space at either end. -/
def trimChars (cs : List Char) : List Char :=
  ((cs.dropWhile isBlank).reverse.dropWhile isBlank).reverse

/-- The text without the white space at either end. -/
def trim (s : String) : String :=
  String.ofList (trimChars s.toList)

@[simp] theorem toList_trim (s : String) : (trim s).toList = trimChars s.toList := by
  simp [trim]

end AlertRegistry.Text
