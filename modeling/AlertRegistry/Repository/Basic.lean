import AlertRegistry.Logging.Level
import AlertRegistry.Repository.Saving

/-!
# Repositories

A `Repository` is a handle to the records of one kind in a store. It is closed at first and accepts
operations only while it is open. Records are read and written as a whole: `upsert` creates a record
or replaces the one with its identifier, in one transaction that leaves no trace if it fails, and
`clear` removes all records in one transaction. A row that denotes no record is reported in the log
and taken as absent.

An operation answers with a `Reply`: its result, the store after it, and what it reports to the log.
A query is made by one repository and can only be run by it.
-/

namespace AlertRegistry

/-- A handle to the records of one kind. -/
structure Repository (α : Type) where
  /-- What tells the handle from all others. -/
  identity : Nat
  /-- How needles are looked for. -/
  strategy : Strategy
  /-- Whether operations are accepted. -/
  state : State := .closed
deriving DecidableEq, Repr

/-- A query with the repository that made it. -/
structure BoundQuery where
  /-- The identity of the repository. -/
  owner : Nat
  /-- What is asked for. -/
  query : Query
deriving DecidableEq, Repr

/-- The records of a page. -/
structure QueryResult (α : Type) where
  /-- The records. -/
  values : List α
  /-- The number of matching rows on all pages. -/
  total : Nat
  /-- The etag of the page. -/
  etag : String

/-- What an upsert did. -/
inductive Outcome where
  /-- The record is new. -/
  | created
  /-- The record replaces another one. -/
  | updated
deriving DecidableEq, Repr

/-- The answer to an operation. -/
structure Reply (α : Type) where
  /-- The result. -/
  result : Except RepositoryError α
  /-- The store after the operation. -/
  store : Store
  /-- What the log is told. -/
  events : List Event

namespace Repository

variable {α : Type}

/-! ## The life of a repository -/

section

variable {ρ γ : Type} [Record α ρ γ]

/-- Moves the repository from one state to the other. -/
def move (r : Repository α) (operation : Operation) (expected next : State) :
    Except RepositoryError (Repository α) × List Event :=
  if r.state = expected then
    (.ok { r with state := next },
      [⟨.debug, Event.describe ("repository_" ++ operation.name) (Record.entity α).name "ok" []⟩])
  else (.error (.state (Record.entity α) operation expected r.state), [])

/-- Opens the repository, which must be closed. -/
def start (r : Repository α) : Except RepositoryError (Repository α) × List Event :=
  r.move .start .closed .opened

/-- Closes the repository, which must be open. -/
def stop (r : Repository α) : Except RepositoryError (Repository α) × List Event :=
  r.move .stop .opened .closed

/-- Fails unless the repository is open. -/
def requireOpen (r : Repository α) (operation : Operation) : Except RepositoryError Unit :=
  if r.state = .opened then .ok ()
  else .error (.state (Record.entity α) operation .opened r.state)

/-- A query that this repository can run. -/
def bind (r : Repository α) (q : Query) : BoundQuery :=
  { owner := r.identity, query := q }

/-- A query that this repository can run, if it is open. -/
def createQuery (r : Repository α) (q : Query) : Except RepositoryError BoundQuery :=
  (r.requireOpen .createQuery).map fun _ => r.bind q

/-! ## What is reported -/

/-- A line about an operation on records of the kind. -/
def report (α : Type) {ρ γ : Type} [Record α ρ γ] (level : Level) (operation status : String)
    (fields : List (String × String)) : Event :=
  let entity := (Record.entity α).name
  ⟨level, Event.describe (entity ++ "_" ++ operation) (entity ++ "_repo") status fields⟩

/-- The field with the identifier of a record. -/
def idField (α : Type) {ρ γ : Type} [Record α ρ γ] (id : String) : String × String :=
  ((Record.entity α).name ++ "_id", id)

/-- The line about a new repository. -/
def configured (r : Repository α) : Event :=
  let entity := (Record.entity α).name
  ⟨.debug, Event.describe (entity ++ "_repo_configure") (entity ++ "_repo") "ok"
    [("query_generator", r.strategy.name)]⟩

/-! ## Reading -/

/-- The record of a row, or the report that there is none. -/
def decode (row : ρ) : Option α × List Event :=
  match Record.ofRow row with
  | .ok a => (some a, [])
  | .error e =>
    (none, [report α .error "decode" "error" [("error_code", "deserialization_failed"),
      idField α (Record.key α row), ("error", (RepositoryError.row e).message)]])

/-- Carries on with an operation if the repository is open. -/
def whenOpen {β : Type} (r : Repository α) (operation : Operation) (s : Store)
    (carryOn : Unit → Reply β) : Reply β :=
  match r.requireOpen operation with
  | .ok () => carryOn ()
  | .error e => { result := .error e, store := s, events := [] }

/-- Carries on with an operation if the store can be used. -/
def whenSound {β : Type} (s : Store) (events : List Event) (carryOn : Unit → Reply β) : Reply β :=
  if s.poisoned then { result := .error (.access .poisoned), store := s, events }
  else carryOn ()

/-- The reply that the store failed. -/
def failed {β : Type} (e : StoreError) (s : Store) (events : List Event) : Reply β :=
  { result := .error (.access (.store e)), store := s, events }

variable [Layout γ]

/-- The record with an identifier. -/
def get (r : Repository α) (id : Uuid) (s : Store) : Reply (Option α) :=
  r.whenOpen .get s fun _ =>
    let started := [report α .debug "get" "start" [idField α (toString id)]]
    whenSound s started fun _ =>
      match s.read (findRow α (toString id)) with
      | (.error e, s) => failed e s started
      | (.ok none, s) => { result := .ok none, store := s, events := started }
      | (.ok (some row), s) =>
        let (a, reports) := decode row
        { result := .ok a, store := s, events := started ++ reports }

/-- The records of a page as a query result, with the reports about rows that denote none. -/
def decodePage (page : Page ρ) : QueryResult α × List Event :=
  let decoded : List (Option α × List Event) := page.rows.map decode
  ({ values := decoded.filterMap Prod.fst, total := page.total, etag := Page.etag α page },
    decoded.flatMap Prod.snd)

/-- The report about the outcome of a query. -/
def queryReport (result : QueryResult α) : List Event :=
  if Record.reportsQueries α then
    [report α .debug "query" "ok" [("returned", toString result.values.length),
      ("total", toString result.total), ("etag", result.etag)]]
  else []

/-- Runs a query of this repository. -/
def query (r : Repository α) (q : BoundQuery) (s : Store) : Reply (QueryResult α) :=
  r.whenOpen .query s fun _ =>
    if q.owner ≠ r.identity then
      { result := .error (.foreignQuery (Record.entity α)), store := s, events := [] }
    else
      let started := [report α .debug "query" "start" [("query", Record.describe α q.query)]]
      whenSound s started fun _ =>
        match s.read (fetchPage α r.strategy q.query) with
        | (.error e, s) => failed e s started
        | (.ok page, s) =>
          let (result, reports) := decodePage page
          { result := .ok result, store := s, events := started ++ reports ++ queryReport result }

/-- The number of records. -/
def count (r : Repository α) (s : Store) : Reply Nat :=
  r.whenOpen .count s fun _ =>
    whenSound s [] fun _ =>
      match s.read fun db => .ok (countRows α db) with
      | (.error e, s) => failed e s []
      | (.ok n, s) => { result := .ok n, store := s, events := [] }

/-! ## Writing -/

/-- Saves a row in the transaction that is active and commits it; if either fails the transaction is
dropped. -/
def saveAndCommit (α : Type) {ρ γ : Type} [Record α ρ γ] (now : Int) (row : ρ) (s : Store) :
    RepositoryStep Unit :=
  match save α now row s with
  | (.error e, s) => (.error e, s.abort)
  | (.ok (), s) =>
    match s.commitOrAbort with
    | (.error e, s) => (.error (.access (.store e)), s)
    | (.ok (), s) => (.ok (), s)

/-- Creates a record, or replaces the one with its identifier, at the time `now`. -/
def upsert (r : Repository α) (now : Int) (a : α) (s : Store) : Reply Outcome :=
  r.whenOpen .upsert s fun _ =>
    let id := Record.id a
    let field := idField α (toString id)
    let started := report α .debug "upsert" "start" [field]
    let refused (level : Level) (code : String) (e : RepositoryError) : Event :=
      report α level "upsert" "error" [("error_code", code), field, ("error", e.message)]
    match Record.toRow a with
    | .error e =>
      let e := RepositoryError.record id e
      { result := .error e, store := s
        events := [started, refused .error "serialization_failed" e] }
    | .ok row =>
      whenSound s [started] fun _ =>
        match s.begin with
        | (.error e, s) => failed e s [started]
        | (.ok (), s) =>
          match s.read (storedVersion α (Record.key α row)) with
          | (.error e, s) => failed e s.abort [started]
          | (.ok version, s) =>
            match saveAndCommit α now (Record.withVersion α row (version.getD 0)) s with
            | (.error e, s) =>
              let e := e.asConflict id
              { result := .error e, store := s
                events := [started, refused .warn "write_rejected" e] }
            | (.ok (), s) =>
              let outcome := if version.isSome then Outcome.updated else .created
              { result := .ok outcome, store := s
                events := [started, report α .info "upsert" "ok"
                  [field, ("created", toString (outcome == .created))]] }

/-- Executes a statement, if there is one. -/
def executeIfAny (statement : Option Statement) (s : Store) : Store.Step Nat :=
  match statement with
  | none => (.ok 0, s)
  | some statement => s.execute statement

/-- Removes all records and counts them. -/
def clear (r : Repository α) (s : Store) : Reply Nat :=
  r.whenOpen .clear s fun _ =>
    let started := report α .debug "delete_all" "start" []
    whenSound s [started] fun _ =>
      match s.begin with
      | (.error e, s) => failed e s [started]
      | (.ok (), s) =>
        match executeIfAny (Record.clearBeside α) s with
        | (.error e, s) => failed e s.abort [started]
        | (.ok _, s) =>
          match s.execute (Record.clear α) with
          | (.error e, s) => failed e s.abort [started]
          | (.ok removed, s) =>
            match s.commitOrAbort with
            | (.error e, s) => failed e s [started]
            | (.ok (), s) =>
              { result := .ok removed, store := s
                events := [started, report α .info "delete_all" "ok"
                  [("removed", toString removed)]] }

end

end Repository

end AlertRegistry
