import AlertRegistry.Database.Basic
import AlertRegistry.Files.Path
import AlertRegistry.Schema.Catalog

/-!
# Trees of files

A `FileTree` lists directories and files by the names on the way to them from the root. Directories
are made one by one along a path, as far as they are missing (`makeDirectories`), in the way the
operating system does it: what was made before a failure stays.
-/

namespace AlertRegistry

/-- What is found under a name. -/
inductive Entry where
  /-- A directory. -/
  | directory
  /-- A file with a store. -/
  | store (catalog : Catalog) (database : Database)
  /-- Any other file. -/
  | file

/-- Why a directory cannot be made. -/
inductive DirectoryError where
  /-- A directory on the way is missing. -/
  | missing
  /-- The name is taken. -/
  | taken
  /-- A file is in the way. -/
  | notADirectory
  /-- A name or the whole path is too long. -/
  | nameTooLong
  /-- The path has a U+0000 in it. -/
  | nulInName
deriving DecidableEq, Repr

/-- The wording of the error. -/
def DirectoryError.message : DirectoryError → String
  | missing => "No such file or directory (os error 2)"
  | taken => "File exists (os error 17)"
  | notADirectory => "Not a directory (os error 20)"
  | nameTooLong => "File name too long (os error 36)"
  | nulInName => "file name contained an unexpected NUL byte"

/-- Directories and files, by the names on the way from the root. -/
structure FileTree where
  /-- The entries. The root is a directory without being listed. -/
  entries : List (List String × Entry) := []

namespace FileTree

/-- The greatest size of a name, in bytes. -/
def maxNameSize : Nat := 255

/-- The greatest size of a path, in bytes. -/
def maxPathSize : Nat := 4095

/-- What is found at a place. -/
def entryAt? (t : FileTree) (place : List String) : Option Entry :=
  if place.isEmpty then some .directory else t.entries.lookup place

/-- The tree with an entry at a place. -/
def put (t : FileTree) (place : List String) (entry : Entry) : FileTree :=
  { t with entries := t.entries.filter (·.1 ≠ place) ++ [(place, entry)] }

/-- The places of the files whose names end in a text. -/
def filesEnding (t : FileTree) (ending : String) : List (List String) :=
  t.entries.filterMap fun (place, entry) =>
    match entry with
    | .directory => none
    | _ => if (place.getLast?.getD "").endsWith ending then some place else none

/-- The place that the parts of a path lead to from a place; all parts but the last must lead
through directories, and then the last may be missing. -/
def walk (t : FileTree) (place : List String) : List String → Except DirectoryError (List String)
  | [] => .ok place
  | part :: parts =>
    match t.entryAt? place with
    | some .directory =>
      if part = "." then t.walk place parts
      else if part = ".." then t.walk place.dropLast parts
      else if maxNameSize < part.utf8ByteSize then .error .nameTooLong
      else t.walk (place ++ [part]) parts
    | some _ => .error .notADirectory
    | none => .error .missing

/-- Something is found where a path leads to, from a place on if it is not absolute. A slash at the
end asks for a directory. -/
def isThere (t : FileTree) (place : List String) (p : Path) : Bool :=
  let last := if p.text.toList.getLast? = some '/' then ["."] else []
  if p.text.isEmpty ∨ maxPathSize < p.text.utf8ByteSize then false
  else
    match t.walk (if p.isAbsolute then [] else place) (p.parts ++ last) with
    | .ok place => (t.entryAt? place).isSome
    | .error _ => false

/-- There is a directory where the parts of a path lead to. -/
def isDirectory (t : FileTree) (parts : List String) : Bool :=
  match t.walk [] parts with
  | .ok place =>
    match t.entryAt? place with
    | some .directory => true
    | _ => false
  | .error _ => false

/-- Makes the last directory of a path. -/
def makeDirectory (t : FileTree) (parts : List String) : Except DirectoryError FileTree :=
  match t.walk [] parts with
  | .error e => .error e
  | .ok place =>
    match t.entryAt? place with
    | some _ => .error .taken
    | none => .ok { t with entries := t.entries ++ [(place, .directory)] }

/-- Makes the last directory of a path, which may be there already. -/
def ensureDirectory (t : FileTree) (parts : List String) : Except DirectoryError FileTree :=
  match t.makeDirectory parts with
  | .ok t => .ok t
  | .error e => if t.isDirectory parts then .ok t else .error e

/-- Makes all missing directories of a path. -/
def makeParts (t : FileTree) (parts : List String) : Except DirectoryError Unit × FileTree :=
  match t.makeDirectory parts with
  | .ok t => (.ok (), t)
  | .error e =>
    if t.isDirectory parts then (.ok (), t)
    else if e ≠ .missing then (.error e, t)
    else if h : parts = [] then (.error e, t)
    else
      have := Path.length_parentParts_lt h
      match t.makeParts (Path.parentParts parts) with
      | (.error e, t) => (.error e, t)
      | (.ok (), t) =>
        match t.ensureDirectory parts with
        | .ok t => (.ok (), t)
        | .error e => (.error e, t)
termination_by parts.length

/-- Makes all missing directories of an absolute path. -/
def makeDirectories (t : FileTree) (p : Path) : Except DirectoryError Unit × FileTree :=
  if p.text.toList.contains '\x00' then (.error .nulInName, t)
  else if maxPathSize < p.text.utf8ByteSize then (.error .nameTooLong, t)
  else t.makeParts p.parts

end FileTree

end AlertRegistry
