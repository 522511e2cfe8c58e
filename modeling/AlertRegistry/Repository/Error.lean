import AlertRegistry.Record

/-!
# Errors of a repository

A repository refuses an operation while it is in the wrong state, a query that was made by another
one, and a record that has no row. A write that the store refuses is a conflict, as is one that
expects a version which is no longer stored; a conflict may go away when the write is tried again.
-/

namespace AlertRegistry

/-- The states of a repository. -/
inductive State where
  /-- No operation is accepted. -/
  | closed
  /-- All operations are accepted. -/
  | opened
deriving DecidableEq, Repr

/-- The name of the state. -/
def State.name : State → String
  | closed => "closed"
  | opened => "open"

/-- The operations of a repository. -/
inductive Operation where
  /-- Opens the repository. -/
  | start
  /-- Closes the repository. -/
  | stop
  /-- Looks up a record. -/
  | get
  /-- Makes a query. -/
  | createQuery
  /-- Runs a query. -/
  | query
  /-- Counts the records. -/
  | count
  /-- Creates or replaces a record. -/
  | upsert
  /-- Removes all records. -/
  | clear
deriving DecidableEq, Repr

/-- The name of the operation. -/
def Operation.name : Operation → String
  | start => "open"
  | stop => "close"
  | get => "get"
  | createQuery => "create_query"
  | query => "query"
  | count => "count"
  | upsert => "add_or_update"
  | clear => "delete_all"

/-- Why a write came too late or not at all. -/
inductive Conflict where
  /-- The row is no longer stored in the expected version. -/
  | version (expected : Int)
  /-- The store refused it. -/
  | rejected (e : StoreError)
deriving DecidableEq, Repr

/-- The wording of the conflict. -/
def Conflict.message : Conflict → String
  | version expected => "row no longer at version " ++ toString expected
  | rejected e => e.message

/-- Why an operation of a repository fails. -/
inductive RepositoryError where
  /-- The repository is in the wrong state for the operation. -/
  | state (entity : Entity) (operation : Operation) (expected actual : State)
  /-- The query was made by another repository. -/
  | foreignQuery (entity : Entity)
  /-- The record has no row. -/
  | record (id : Uuid) (e : RecordError)
  /-- The write met a conflict. -/
  | conflict (id : Uuid) (c : Conflict)
  /-- The row denotes no record. -/
  | row (e : RowError)
  /-- The store cannot be used. -/
  | access (e : AccessError)
deriving DecidableEq

namespace RepositoryError

/-- The wording of the error. -/
def message : RepositoryError → String
  | state entity operation expected actual =>
    entity.name ++ " repository cannot `" ++ operation.name ++ "` while " ++ actual.name
      ++ "; expected " ++ expected.name
  | foreignQuery entity =>
    "query descriptor was created by another " ++ entity.name ++ " repository"
  | record id e => "cannot serialize record " ++ toString id ++ ": " ++ e.message
  | conflict id c => "storage conflict for record " ++ toString id ++ ": " ++ c.message
  | row e => "invalid persisted data: " ++ e.message
  | access e => e.message

/-- The write may succeed when it is tried again. -/
def isConflict : RepositoryError → Bool
  | conflict .. => true
  | _ => false

/-- The wording of the error of the store that lies behind this one. -/
def cause? : RepositoryError → Option String
  | conflict _ (.rejected e) => some e.message
  | access e => some e.message
  | _ => none

/-- An error of the store that came up while the record was written, as a conflict. -/
def asConflict (id : Uuid) : RepositoryError → RepositoryError
  | access (.store e) => conflict id (.rejected e)
  | e => e

end RepositoryError

end AlertRegistry
