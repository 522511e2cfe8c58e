import AlertRegistry.Text.Printable

/-!
# Quoted text for debugging

A text is shown between double quotes. The quote, the backslash and the usual controls have short
escapes, a character without a shape of its own is written by its code in hexadecimal, and every
other character stands for itself. `quoteOption` shows an optional text.
-/

namespace AlertRegistry.Text

/-- How one character is shown between quotes. -/
def quoteChar (c : Char) : List Char :=
  if c = '"' then ['\\', '"']
  else if c = '\\' then ['\\', '\\']
  else if c = '\n' then ['\\', 'n']
  else if c = '\r' then ['\\', 'r']
  else if c = '\t' then ['\\', 't']
  else if c.toNat = 0 then ['\\', '0']
  else if isPrintable c then [c]
  else "\\u\x7b".toList ++ Nat.toDigits 16 c.toNat ++ ['}']

/-- The text between double quotes, with escapes. -/
def quote (s : String) : String :=
  String.ofList ('"' :: s.toList.flatMap quoteChar ++ ['"'])

/-- An optional text: `None`, or `Some` of the quoted text. -/
def quoteOption : Option String → String
  | none => "None"
  | some s => "Some(" ++ quote s ++ ")"

end AlertRegistry.Text
