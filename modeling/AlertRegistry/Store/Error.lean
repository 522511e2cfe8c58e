import AlertRegistry.Table.Basic

/-!
# Errors of the store

A `StoreError` is what a single read or statement fails with. An `AccessError` also covers a store
that cannot be used at all: one with a schema from the future, or one whose handle was left in an
unknown state.
-/

namespace AlertRegistry

/-- Why a read, a statement or the start or end of a transaction fails. -/
inductive StoreError where
  /-- The change is not possible. -/
  | change (e : ChangeError)
  /-- Another connection holds a lock that stands in the way. -/
  | locked
  /-- A transaction is already active. -/
  | nested
  /-- There is no transaction to commit. -/
  | nothingToCommit
  /-- There is no transaction to roll back. -/
  | nothingToRollBack
  /-- The cell in the named column of the result is not of the type that is read. -/
  | columnType (type : String) (index : Nat) (name : String)
  /-- A search pattern is too long. -/
  | patternTooLong
  /-- The text of a statement cannot be read. -/
  | syntaxError (text : String)
  /-- A statement names a column that is not there. -/
  | noColumn (name : String)
  /-- A statement does not get as many values as it has placeholders. -/
  | parameterCount (given needed : Nat)
  /-- A placeholder gets a value of another type. -/
  | datatypeMismatch
  /-- A schema object to be made exists already. -/
  | objectExists (kind name : String)
  /-- The name of a schema object to be made belongs to one of another sort. -/
  | nameTaken (owner name : String)
  /-- The number in the first column of the result does not fit. -/
  | numberOutOfRange (n : Int)
  /-- There is no file at the path and none can be made. -/
  | cannotOpen (path : String)
  /-- The file is something else. -/
  | notADatabase
  /-- The store may not be changed. -/
  | readOnly
  /-- A journal cannot be opened. -/
  | noJournal
  /-- A file beside the store cannot be read or removed. -/
  | inputOutput
deriving DecidableEq, Repr

/-- The wording of the error. -/
def StoreError.message : StoreError → String
  | change e => e.message
  | locked => "database is locked"
  | nested => "cannot start a transaction within a transaction"
  | nothingToCommit => "cannot commit - no transaction is active"
  | nothingToRollBack => "cannot rollback - no transaction is active"
  | columnType type index name =>
    "Invalid column type " ++ type ++ " at index: " ++ toString index ++ ", name: " ++ name
  | patternTooLong => "LIKE or GLOB pattern too complex"
  | syntaxError text => "syntax error in " ++ text
  | noColumn name => "no such column: " ++ name
  | parameterCount given needed =>
    "Wrong number of parameters passed to query. Got " ++ toString given ++ ", needed "
      ++ toString needed
  | datatypeMismatch => "datatype mismatch"
  | objectExists kind name => kind ++ " " ++ name ++ " already exists"
  | nameTaken owner name => "there is already " ++ owner ++ " named " ++ name
  | numberOutOfRange n => "Integer " ++ toString n ++ " out of range at index 0"
  | cannotOpen path => "unable to open database file: " ++ path
  | notADatabase => "file is not a database"
  | readOnly => "attempt to write a readonly database"
  | noJournal => "unable to open database file"
  | inputOutput => "disk I/O error"

/-- Why a store cannot be used. -/
inductive AccessError where
  /-- An operation of the store fails. -/
  | store (e : StoreError)
  /-- The schema is newer than the newest one that is known. -/
  | unsupportedVersion (found supported : Nat)
  /-- The connection was left in an unknown state. -/
  | poisoned
deriving DecidableEq, Repr

/-- The wording of the error. -/
def AccessError.message : AccessError → String
  | store e => e.message
  | unsupportedVersion found supported =>
    "database schema version " ++ toString found ++ " is newer than supported "
      ++ toString supported
  | poisoned => "shared database connection is poisoned"

end AlertRegistry
