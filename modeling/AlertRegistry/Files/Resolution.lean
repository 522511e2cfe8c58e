import AlertRegistry.Files.Tree
import AlertRegistry.Text.Bytes

/-!
# Places by resolution

A path can be resolved into the names on the way from the root, part by part, without going there:
`.` adds nothing and `..` takes the last name away, whether or not there is a directory of that
name. A name may be missing, but not be too long or lie in a file. Names are byte strings here, and
need not be texts.
-/

namespace AlertRegistry

/-- A name in a directory. -/
abbrev FileName := List UInt8

namespace FileTree

/-- The greatest size of the path through resolved names, in bytes. -/
def maxResolvedSize : Nat := 511

/-- The size of the path through names from the root, each after a slash. -/
def pathSize (names : List FileName) : Nat :=
  names.foldl (fun size name => size + (name.length + 1)) 0

/-- What is found under names from a place on; `none` if only the last one is missing. A name that
is no text is missing. -/
def find? (t : FileTree) (place : List String) :
    List FileName → Except DirectoryError (Option Entry)
  | [] => .ok (t.entryAt? place)
  | name :: names =>
    match t.entryAt? place with
    | some .directory =>
      if maxNameSize < name.length then .error .nameTooLong
      else
        match Text.ofBytes? name with
        | some text => t.find? (place ++ [text]) names
        | none => if names.isEmpty then .ok none else .error .missing
    | some _ => .error .notADirectory
    | none => .error .missing

/-- The names do not lead through a file, and none of those that are reached is too long. -/
def isPassable (t : FileTree) (names : List FileName) : Bool :=
  match t.find? [] names with
  | .ok _ => true
  | .error e => e = .missing

/-- The names after one more part of a path. -/
def enter? (t : FileTree) (names : List FileName) (part : FileName) : Option (List FileName) :=
  if part = Text.bytes "." then some names
  else if part = Text.bytes ".." then some names.dropLast
  else
    let names := names ++ [part]
    if pathSize names ≤ maxResolvedSize ∧ t.isPassable names then some names else none

/-- The names to which a path leads from a place. -/
def resolve? (t : FileTree) (place : List String) (path : List UInt8) : Option (List FileName) :=
  let slash : UInt8 := 0x2F
  let parts := (Text.pieces slash path).filter fun part => !part.isEmpty
  let start := if path.head? = some slash then [] else place.map Text.bytes
  (start ++ parts).foldlM t.enter? []

end FileTree

end AlertRegistry
