import AlertRegistry.Database.Basic
import AlertRegistry.Store.Error

/-!
# One connection to a store

A `Store` is what one connection sees: the committed database, its own transaction, and which locks
the other connections to the same file hold. Outside a transaction each statement counts by itself.

One connection at a time may write. A transaction that starts with `begin` takes that right at once,
one that starts with `beginRead` only keeps others from committing. Whoever has the right to write
commits alone, even if nothing was changed: the commit has to wait until nobody else reads. Refused
in a transaction that was started with `begin` it leaves the transaction as it is, but from then on
nobody else may start to read.
-/

namespace AlertRegistry

/-- The transaction of a connection. -/
inductive Transaction where
  /-- There is none. -/
  | none
  /-- It has changed nothing; `reads` tells whether it has read. -/
  | deferred (reads : Bool)
  /-- It has the right to write. It holds its own version of the database; `waits` tells whether its
  commit was refused. -/
  | writing (work : Database) (waits : Bool)

namespace Transaction

/-- The transaction keeps others from committing. -/
def isReading : Transaction → Bool
  | deferred reads => reads
  | _ => false

/-- The transaction keeps others from writing. -/
def isWriting : Transaction → Bool
  | writing .. => true
  | _ => false

/-- The transaction keeps others from starting to read. -/
def isWaiting : Transaction → Bool
  | writing _ waits => waits
  | _ => false

end Transaction

/-- The locks that other connections hold. -/
structure Locks where
  /-- One of them writes. -/
  write : Bool := false
  /-- One of them reads. -/
  read : Bool := false
  /-- One of them waits for the readers to end. -/
  wait : Bool := false
deriving DecidableEq, Repr

/-- One connection to a store. -/
structure Store where
  /-- The committed database. -/
  committed : Database := {}
  /-- The connection's own transaction. -/
  transaction : Transaction := .none
  /-- What the other connections hold. -/
  others : Locks := {}
  /-- The connection was left in an unknown state. -/
  poisoned : Bool := false

namespace Store

/-- The result of an operation with the store after it. -/
abbrev Step (α : Type) := Except StoreError α × Store

/-- The database as the connection sees it. -/
def view (s : Store) : Database :=
  match s.transaction with
  | .writing work _ => work
  | _ => s.committed

/-- Reads from the database. -/
def read {α : Type} (s : Store) (f : Database → Except StoreError α) : Step α :=
  match s.transaction with
  | .none => if s.others.wait then (.error .locked, s) else (f s.committed, s)
  | .deferred false =>
    if s.others.wait then (.error .locked, s)
    else (f s.committed, { s with transaction := .deferred true })
  | .deferred true => (f s.committed, s)
  | .writing work _ => (f work, s)

/-- Runs a statement and counts the tuples that it changed. -/
def execute (s : Store) (statement : Statement) : Step Nat :=
  match s.transaction with
  | .none =>
    if s.others.write then (.error .locked, s)
    else
      match statement s.committed with
      | .error e => (.error (.change e), s)
      | .ok e =>
        if s.others.read then (.error .locked, s)
        else (.ok e.count, { s with committed := e.database })
  | .deferred _ =>
    if s.others.write then (.error .locked, s)
    else
      match statement s.committed with
      | .error e => (.error (.change e), { s with transaction := .writing s.committed false })
      | .ok e => (.ok e.count, { s with transaction := .writing e.database false })
  | .writing work waits =>
    match statement work with
    | .error e => (.error (.change e), s)
    | .ok e => (.ok e.count, { s with transaction := .writing e.database waits })

/-- Starts a transaction with the right to write. -/
def begin (s : Store) : Step Unit :=
  if s.others.write then (.error .locked, s)
  else
    match s.transaction with
    | .none => (.ok (), { s with transaction := .writing s.committed false })
    | .deferred _ => (.error .nested, { s with transaction := .writing s.committed false })
    | .writing .. => (.error .nested, s)

/-- Starts a transaction and reads in it. -/
def beginRead (s : Store) : Step Unit :=
  match s.transaction with
  | .none => { s with transaction := .deferred false }.read fun _ => .ok ()
  | _ => (.error .nested, s)

/-- Makes the changes of the transaction permanent. -/
def commit (s : Store) : Step Unit :=
  match s.transaction with
  | .none => (.error .nothingToCommit, s)
  | .deferred _ => (.ok (), { s with transaction := .none })
  | .writing work _ =>
    if s.others.read then (.error .locked, { s with transaction := .writing work true })
    else (.ok (), { s with committed := work, transaction := .none })

/-- Drops the changes of the transaction. -/
def abort (s : Store) : Store :=
  { s with transaction := .none }

/-- Drops the changes of the transaction, which must exist. -/
def rollback (s : Store) : Step Unit :=
  match s.transaction with
  | .none => (.error .nothingToRollBack, s)
  | _ => (.ok (), s.abort)

/-- Makes the changes of the transaction permanent, or drops them if that is refused. -/
def commitOrAbort (s : Store) : Step Unit :=
  match s.commit with
  | (.ok (), s) => (.ok (), s)
  | (.error e, s) => (.error e, s.abort)

/-- The locks that a list of connections hold. -/
def locks (peers : List Store) : Locks where
  write := peers.any fun p => p.transaction.isWriting
  read := peers.any fun p => p.transaction.isReading
  wait := peers.any fun p => p.transaction.isWaiting

end Store

end AlertRegistry
