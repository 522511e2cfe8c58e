import AlertRegistry.Decimal.Style
import AlertRegistry.Json.Value

/-!
# Writing JSON

Values are written without blanks. Strings escape the quote, the backslash and the controls below
U+0020, with a letter where there is one; everything else stands for itself. A double is written as
its shortest decimal, positionally while its first digit has a place from -5 to 15. NaN and the
infinities are written `null`.
-/

namespace AlertRegistry.Json

/-- How doubles are written: `0.00001` and `1000000000000000.0` are the extremes of the positional
form, `1e-6` and `1e+16` lie beyond. -/
def numberStyle : Decimal.Style := ⟨-5, 15⟩

/-- The characters of a double. -/
def writeFloat (x : Float) : List Char :=
  match Decimal.Binary.ofFloat? x with
  | some b => numberStyle.writeBinary b
  | none => ['n', 'u', 'l', 'l']

/-- The characters of an integer. -/
def writeInteger (n : Int) : List Char :=
  if n < 0 then '-' :: Text.digitsOfNat n.natAbs else Text.digitsOfNat n.natAbs

/-- How one character is written in a string. -/
def escape (c : Char) : List Char :=
  if c = '"' then ['\\', '"']
  else if c = '\\' then ['\\', '\\']
  else if c = '\x08' then ['\\', 'b']
  else if c = '\x0c' then ['\\', 'f']
  else if c = '\n' then ['\\', 'n']
  else if c = '\r' then ['\\', 'r']
  else if c = '\t' then ['\\', 't']
  else if c.toNat < 0x20 then
    ['\\', 'u', '0', '0', Nat.digitChar (c.toNat / 16), Nat.digitChar (c.toNat % 16)]
  else [c]

/-- The characters of a string with its quotes. -/
def writeText (cs : List Char) : List Char :=
  '"' :: cs.flatMap escape ++ ['"']

/-- The elements with a comma between each two of them. -/
def separated (l : List (List Char)) : List Char :=
  (l.intersperse [',']).flatten

/-- One member of an object, its value already written. -/
def writeMember (key : String) (value : List Char) : List Char :=
  writeText key.toList ++ ':' :: value

/-- An object whose members are already written. -/
def enclose (members : List (List Char)) : List Char :=
  '\x7b' :: separated members ++ ['\x7d']

mutual

/-- The characters of a value. -/
def write : Value → List Char
  | .null => ['n', 'u', 'l', 'l']
  | .bool true => ['t', 'r', 'u', 'e']
  | .bool false => ['f', 'a', 'l', 's', 'e']
  | .integer n => writeInteger n
  | .number x => writeFloat x
  | .text s => writeText s.toList
  | .array items => '[' :: separated (writeItems items) ++ [']']
  | .object ms => enclose (writeMembers ms)

/-- The items of an array, each written. -/
def writeItems : List Value → List (List Char)
  | [] => []
  | v :: vs => write v :: writeItems vs

/-- The members of an object, each written. -/
def writeMembers : List (String × Value) → List (List Char)
  | [] => []
  | (k, v) :: ms => writeMember k (write v) :: writeMembers ms

end

/-- The text of a value. -/
protected def Value.toString (v : Value) : String :=
  String.ofList (write v)

instance : ToString Value where
  toString := Value.toString

end AlertRegistry.Json
