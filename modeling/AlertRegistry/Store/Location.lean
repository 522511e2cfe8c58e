import AlertRegistry.Files.Uri
import AlertRegistry.Text.Digits

/-!
# Locations of stores

A store is named by the path of its file or by a file URI. The parameters of a URI say how the file
is used: `mode` what may be done with it, `vfs` by which means it is reached, `immutable` that
nobody changes it, `nolock` that it is not locked, and `modeof` from which file a new one takes its
permissions. `cache` says whether connections share their pages, which makes no difference to one
connection. An unknown value of `mode`, `cache` or `vfs` is refused, and so is an authority other
than this machine. Of several values of `mode` each may only narrow the one before it; of `vfs` the
last one counts, of `immutable`, `nolock` and `modeof` the first one. Other parameters mean nothing.
-/

namespace AlertRegistry

/-- What may be done with the file of a store. -/
inductive Access where
  /-- The store is in memory and the file is left alone. -/
  | memory
  /-- The file is read. -/
  | readOnly
  /-- The file is read and written. -/
  | readWrite
  /-- The file is read and written, and made if it is missing. -/
  | create
deriving DecidableEq, Repr

namespace Access

/-- The values of `mode` and what they ask for. -/
def names : List (String × Access) :=
  [("ro", readOnly), ("rw", readWrite), ("rwc", create), ("memory", memory)]

/-- The access that a value of `mode` asks for. -/
def ofBytes? (v : List UInt8) : Option Access :=
  (names.find? fun m => v = Text.bytes m.1).map Prod.snd

/-- How much an access permits. -/
def rank : Access → Nat
  | memory => 0
  | readOnly => 1
  | readWrite => 2
  | create => 3

/-- The wanted access in place of the current one, if it permits no more. The memory can be asked
for at any time, and given up for any access. -/
def change? (current wanted : Access) : Option Access :=
  if current = memory ∨ wanted.rank ≤ current.rank then some wanted else none

end Access

/-- By which means the file of a store is reached. -/
inductive Means where
  /-- It is a file of the operating system, which also keeps its locks. -/
  | system
  /-- It is a file of the operating system. While it is in use there is a directory beside it. -/
  | lockDirectory
  /-- It is kept in memory. -/
  | memory
deriving DecidableEq, Repr

namespace Means

/-- The values of `vfs` and what they ask for. -/
def names : List (String × Means) :=
  [("unix", system), ("unix-none", system), ("unix-excl", system), ("unix-dotfile", lockDirectory),
    ("memdb", memory)]

/-- The means that a value of `vfs` asks for. -/
def ofBytes? (v : List UInt8) : Option Means :=
  (names.find? fun m => v = Text.bytes m.1).map Prod.snd

end Means

/-- Where a store is and how it is used. -/
structure Location where
  /-- The path of the file. -/
  path : List UInt8
  /-- What may be done with the file. -/
  access : Access := .create
  /-- By which means the file is reached. -/
  means : Means := .system
  /-- Nobody changes the file. -/
  immutable : Bool := false
  /-- The file is not locked. -/
  unlocked : Bool := false
  /-- The path of the file from which a new file takes its permissions. -/
  permissionsOf : Option (List UInt8) := none
deriving DecidableEq, Repr

namespace Location

/-- The number at the start of a value, in hexadecimal digits after `0x` and in decimal ones
elsewhere. A number of more than 31 bits counts as zero. -/
def leadingNumber (cs : List Char) : Nat :=
  let n := match cs with
    | '0' :: 'x' :: cs =>
      Text.natOfHex ((cs.takeWhile fun c => (Text.hexValue? c).isSome).filterMap Text.hexValue?)
    | cs => Text.natOfDigits (cs.takeWhile Char.isDigit)
  if n < 0x80000000 then n else 0

/-- A value that says yes, whatever the case of its letters: a number that does not end in eight
zero bits, or one of three words. -/
def isYes (v : List UInt8) : Bool :=
  let cs := v.map fun b => (Char.ofNat b.toNat).toLower
  if (cs.head?.map Char.isDigit).getD false then leadingNumber cs % 0x100 ≠ 0
  else ["on", "yes", "true"].any fun word => cs = word.toList

/-- The first value of a parameter says yes. -/
def isSet (u : FileUri) (name : String) : Bool :=
  ((u.values name).head?.map isYes).getD false

/-- The location that a URI means. -/
def ofUri? (u : FileUri) : Option Location :=
  let known (v : List UInt8) : Bool :=
    ["shared", "private"].any fun word => v = Text.bytes word
  if (u.authority = "" ∨ u.authority = "localhost") ∧ (u.values "cache").all known then do
    let access ← (u.values "mode").foldlM
      (fun access v => (Access.ofBytes? v).bind access.change?) Access.create
    let means ← match (u.values "vfs").getLast? with
      | none => some Means.system
      | some v => Means.ofBytes? v
    return {
      path := u.path
      access
      means
      immutable := isSet u "immutable"
      unlocked := isSet u "nolock"
      permissionsOf := (u.values "modeof").head? }
  else none

/-- The location that a name means; `none` if it is refused. -/
def ofName? (name : String) : Option Location :=
  match FileUri.ofString? name with
  | some u => ofUri? u
  | none => some { path := Text.bytes name }

end Location

end AlertRegistry
