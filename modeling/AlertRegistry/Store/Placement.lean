import AlertRegistry.Files.Resolution
import AlertRegistry.Store.Location
import AlertRegistry.Store.Opening

/-!
# Stores among files

`FileTree.medium` finds what is at the place that a store is named by. A missing file is made if
that is permitted. A name without a path, and the path `:memory:`, mean a new store of one's own.

Beside the file of a store is the place of two journals and of its lock. A directory in the place of
a journal is in the way: an empty store cannot be changed then, and any other store cannot be read,
unless the journal is held to be in use because there is a lock. A store that may not be written, or
that has no room for the name of its journal, can be read as long as nothing has to be changed.
Nothing is in the way of a store that nobody changes.
-/

namespace AlertRegistry

/-- What is found at the place of a store. -/
structure Found where
  /-- What it is. -/
  medium : Medium
  /-- The database in it. -/
  database : Database := {}
  /-- The names of the file of a store, which is there now. -/
  file : Option (List FileName) := none

namespace FileTree

/-- The greatest size of the path of a store, which leaves room for a longer path of a journal. -/
def maxStorePathSize : Nat := 504

/-- The greatest size of the path that a store in memory is given. -/
def maxMemoryPathSize : Nat := 1016

/-- What follows the name of a store in the name of the journal of its changes. -/
def journalSuffix : String := "-journal"

/-- What follows the name of a store in the name of the journal of what is still to be changed. -/
def aheadSuffix : String := "-wal"

/-- What follows the name of a store in the name of its lock. -/
def lockSuffix : String := ".lock"

/-- The names of what is beside a file. -/
def beside (names : List FileName) (suffix : String) : List FileName :=
  names.dropLast ++ (names.getLast?.map (· ++ Text.bytes suffix)).toList

/-- There is a directory beside a file. -/
def isBlocked (t : FileTree) (names : List FileName) (suffix : String) : Bool :=
  match t.find? [] (beside names suffix) with
  | .ok (some .directory) => true
  | _ => false

/-- There is no room for the name of the journal of a file, or a directory in its place. -/
def lacksJournal (t : FileTree) (names : List FileName) : Bool :=
  let size := (((beside names journalSuffix).getLast?).map List.length).getD 0
  maxNameSize < size ∨ t.isBlocked names journalSuffix

/-- Why a file with a catalog, used as a location says, cannot be read. -/
def obstacle? (t : FileTree) (l : Location) (names : List FileName) (c : Catalog) :
    Option StoreError :=
  let locks := l.means = .lockDirectory ∧ !l.unlocked
  let locked := l.means = .lockDirectory ∧ t.isBlocked names lockSuffix
  if locks ∧ locked then some .locked
  else if t.isBlocked names journalSuffix ∧ c ≠ {} ∧ ¬ (locks ∨ locked) then some .inputOutput
  else if t.isBlocked names aheadSuffix then some (if c = {} then .inputOutput else .noJournal)
  else none

/-- A file with a catalog, used as a location says. -/
def storeMedium (t : FileTree) (l : Location) (names : List FileName) (c : Catalog) : Medium :=
  if l.immutable then .fixed c .readOnly
  else
    match t.obstacle? l names c with
    | some e => .unreadable e
    | none =>
      if l.access = .readOnly then .fixed c .readOnly
      else if t.lacksJournal names then .fixed c .noJournal
      else .file c

/-- A new store that is in no file. -/
def freshMedium (fixed : Bool) : Medium :=
  if fixed then .fixed {} .readOnly else .file {}

/-- The file from which permissions are taken is there, if one is named. -/
def hasPermissions (t : FileTree) (place : List String) (l : Location) : Bool :=
  match l.permissionsOf.map Text.ofBytes? with
  | none => true
  | some none => false
  | some (some path) => t.isThere place ⟨path⟩

/-- What is found in a file at a location that was given by a name. -/
def mediumInFile (t : FileTree) (place : List String) (name : String) (l : Location) : Found :=
  match t.resolve? place l.path with
  | none | some [] => { medium := .absent name }
  | some names =>
    if maxStorePathSize < pathSize names ∨ !t.hasPermissions place l then { medium := .absent name }
    else
      match t.find? [] names with
      | .ok none =>
        if l.access = .create then { medium := t.storeMedium l names {}, file := some names }
        else { medium := .absent name }
      | .ok (some (.store c database)) =>
        { medium := t.storeMedium l names c, database, file := some names }
      | .ok (some .file) => { medium := .unreadable .notADatabase }
      | .ok (some .directory) | .error _ => { medium := .absent name }

/-- What is found where a store is named, relative paths starting at a place; without a name the
store is in memory. -/
def medium (t : FileTree) (place : List String) : Option String → Found
  | none => { medium := .memory }
  | some name =>
    if name.toList.contains '\x00' then { medium := .absent name }
    else
      match Location.ofName? name with
      | none => { medium := .absent name }
      | some l =>
        if l.access = .memory then { medium := freshMedium false }
        else if l.path = [] ∨ l.path = Text.bytes ":memory:" then
          { medium := freshMedium (l.access = .readOnly) }
        else if l.means = .memory then
          if maxMemoryPathSize < l.path.length then { medium := .absent name }
          else { medium := freshMedium (l.access = .readOnly ∨ l.immutable) }
        else t.mediumInFile place name l

end FileTree

end AlertRegistry
