import AlertRegistry.Text.Bytes
import AlertRegistry.Text.Hex
import AlertRegistry.Text.Pieces

/-!
# File URIs

A file URI is `file:` in lower case, an authority if two slashes follow, a path, parameters after
the first question mark, and after the first `#` a fragment, which means nothing here. Parameters
stand between ampersands, and the first equals sign in one ends its name. The path, the names and
the values are bytes: a percent sign before two hexadecimal digits makes a byte of them, and the
byte zero ends the piece in which it stands. A parameter without a name is left out.
-/

namespace AlertRegistry

/-- A file URI, taken apart. -/
structure FileUri where
  /-- The authority as it is written. -/
  authority : String
  /-- The path. -/
  path : List UInt8
  /-- The names and values of the parameters in their order. -/
  parameters : List (List UInt8 × List UInt8)
deriving DecidableEq, Repr

namespace FileUri

/-- The bytes that a piece of a URI stands for. -/
def decode : List Char → List UInt8
  | '%' :: a :: b :: cs =>
    match Text.hexValue? a, Text.hexValue? b with
    | some x, some y =>
      let byte := (16 * x.val + y.val).toUInt8
      if byte = 0 then [] else byte :: decode cs
    | _, _ => 0x25 :: decode (a :: b :: cs)
  | c :: cs => String.utf8EncodeChar c ++ decode cs
  | [] => []

/-- The authority at the start of a text, and what comes after it. -/
def takeAuthority : List Char → String × List Char
  | '/' :: '/' :: cs => (String.ofList (cs.takeWhile (· ≠ '/')), cs.dropWhile (· ≠ '/'))
  | cs => ("", cs)

/-- The parameters in a text. -/
def readParameters (cs : List Char) : List (List UInt8 × List UInt8) :=
  let read (item : List Char) : List UInt8 × List UInt8 :=
    let (name, value) := Text.cut '=' item
    (decode name, decode value)
  ((Text.pieces '&' cs).map read).filter fun m => !m.1.isEmpty

/-- The URI that a text is; `none` if it does not start like one. -/
def ofString? (s : String) : Option FileUri :=
  match s.toList with
  | 'f' :: 'i' :: 'l' :: 'e' :: ':' :: cs =>
    let (authority, cs) := takeAuthority cs
    let (path, query) := Text.cut '?' (Text.cut '#' cs).1
    some { authority, path := decode path, parameters := readParameters query }
  | _ => none

/-- The values of the parameters of a name. -/
def values (u : FileUri) (name : String) : List (List UInt8) :=
  (u.parameters.filter fun m => m.1 = Text.bytes name).map Prod.snd

end FileUri

end AlertRegistry
