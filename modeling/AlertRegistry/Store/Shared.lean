import AlertRegistry.Store.Basic

/-!
# Several connections

`Connections` lists connections, each with the file it is on; a connection without a file has a
store of its own. `Connections.run` lets one of them act: before, it is told what the others on its
file hold, and afterwards these see what it committed.
-/

namespace AlertRegistry

/-- A connection with the name of its file. -/
structure Connection where
  /-- The file, none for a store of its own. -/
  file : Option String
  /-- The connection's side of the store. -/
  store : Store := {}

namespace Connection

/-- Both connections are on one file. -/
def sharesFile (c d : Connection) : Bool :=
  c.file.isSome && c.file = d.file

/-- Takes over the database that another connection to the file committed. -/
def follow (c d : Connection) : Connection :=
  if c.sharesFile d then { c with store := { c.store with committed := d.store.committed } } else c

end Connection

/-- Connections to any number of stores. -/
abbrev Connections := List Connection

namespace Connections

/-- The connections other than the one at a position. -/
def peers (cs : Connections) (i : Nat) : Connections :=
  cs.eraseIdx i

/-- The side of the store at a position, with the locks that others hold on its file. -/
def at? (cs : Connections) (i : Nat) : Option Store :=
  cs[i]?.map fun c =>
    { c.store with others := Store.locks (((cs.peers i).filter c.sharesFile).map Connection.store) }

/-- Puts back a side of a store; the others on its file see what it committed. -/
def putBack (cs : Connections) (i : Nat) (s : Store) : Connections :=
  match cs[i]? with
  | none => cs
  | some c =>
    let c := { c with store := s }
    (cs.map (·.follow c)).set i c

/-- Lets the connection at a position act. -/
def run {α : Type} (cs : Connections) (i : Nat) (f : Store → α × Store) :
    Option (α × Connections) :=
  (cs.at? i).map fun s =>
    let (a, s) := f s
    (a, cs.putBack i s)

end Connections

end AlertRegistry
