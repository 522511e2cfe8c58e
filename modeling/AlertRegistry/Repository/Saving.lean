import AlertRegistry.Repository.Error
import AlertRegistry.Store.Basic

/-!
# Saving rows

A row with version 0 is inserted; any other version must be the stored one, and the row is replaced.
Then what is kept beside the row is written. These are statements of their own: outside a
transaction each of them counts by itself.
-/

namespace AlertRegistry

variable {ρ : Type}

/-- The result of an operation of a repository on a store, with the store after it. -/
abbrev RepositoryStep (α : Type) := Except RepositoryError α × Store

section

variable (α : Type) {γ : Type} [Record α ρ γ]

/-- The error of a row that is not stored in its version: its key may be no identifier at all. -/
def versionError (r : ρ) : RepositoryError :=
  match Uuid.ofString? (Record.key α r) with
  | none => .row (.id (Record.entity α).table (Record.key α r))
  | some id => .conflict id (.version (Record.version α r))

/-- Writes what is kept beside a row. -/
def saveBeside (r : ρ) (s : Store) : RepositoryStep Unit :=
  match Record.writeBeside α with
  | none => (.ok (), s)
  | some write =>
    match s.execute (write r) with
    | (.ok _, s) => (.ok (), s)
    | (.error e, s) => (.error (.access (.store e)), s)

/-- Writes a row at the time `now`, and what is kept beside it. -/
def save (now : Int) (r : ρ) (s : Store) : RepositoryStep Unit :=
  if Record.version α r = 0 then
    match s.execute (Record.insert α now r) with
    | (.ok _, s) => saveBeside α r s
    | (.error e, s) => (.error (.access (.store e)), s)
  else
    match s.execute (Record.replace α now r) with
    | (.ok 0, s) => (.error (versionError α r), s)
    | (.ok _, s) => saveBeside α r s
    | (.error e, s) => (.error (.access (.store e)), s)

end

end AlertRegistry
