import AlertRegistry.Filter.Strategy
import AlertRegistry.Logging.Level
import AlertRegistry.Toml.Document

/-!
# Configuration

A configuration is a TOML document with four sections, each with a few fields; every section and
every field has a default, and what is unknown is skipped. A section is a table, or an array of its
fields in their order; a date in its place is an empty section. The names of both search strategies
are checked when the document is read, that of the alerts first.
-/

namespace AlertRegistry

/-- Where the store is. -/
structure DatabaseConfig where
  /-- The path of its file; without one it is in memory. -/
  path : Option String := none
deriving DecidableEq, Repr

/-- How the records of a kind are kept. -/
structure RepositoryConfig where
  /-- The name of the search strategy. -/
  strategy : String := Strategy.generic.name
deriving DecidableEq, Repr

/-- Where log lines go. -/
structure LoggingConfig where
  /-- The level of the log. -/
  level : String := defaultLevel.name
  /-- The directory of the log; without one nothing is logged. -/
  directory : Option String := none
deriving DecidableEq, Repr

/-- A configuration. -/
structure Config where
  /-- Where the store is. -/
  database : DatabaseConfig := {}
  /-- How alerts are kept. -/
  alerts : RepositoryConfig := {}
  /-- How expressions are kept. -/
  expressions : RepositoryConfig := {}
  /-- Where log lines go. -/
  logging : LoggingConfig := {}
deriving DecidableEq, Repr

/-- Why a file cannot be read as a text. -/
inductive FileError where
  /-- There is no such file. -/
  | missing
  /-- The bytes are no UTF-8. -/
  | notText
deriving DecidableEq, Repr

/-- The wording of the error. -/
def FileError.message : FileError → String
  | missing => "No such file or directory (os error 2)"
  | notText => "stream did not contain valid UTF-8"

/-- Why there is no configuration. -/
inductive ConfigError where
  /-- The file cannot be read. -/
  | file (e : FileError)
  /-- The text is no document of a configuration. -/
  | malformed
  /-- A search strategy is unknown. -/
  | strategy (e : UnknownStrategy)
deriving DecidableEq, Repr

/-- The wording of the error. What exactly is wrong with a malformed text is not told. -/
def ConfigError.message : ConfigError → String
  | file e => "failed to read configuration: " ++ e.message
  | malformed => "failed to parse configuration"
  | strategy e => e.message

/-! ## Sections -/

/-- The fields of a section in the order of their names, `none` for each that is missing. -/
def Toml.Value.fields? (names : List String) : Toml.Value → Option (List (Option Toml.Value))
  | .table ms => some (names.map fun name => ms.lookup name)
  | .array items =>
    some (((items.take names.length).map some)
      ++ List.replicate (names.length - items.length) none)
  | .moment _ => some (names.map fun _ => none)
  | _ => none

/-- The text in a field, or the default if the field is missing; `none` if it is no text. -/
def textField? (default : String) : Option Toml.Value → Option String
  | none => some default
  | some (.text s) => some s
  | some _ => none

/-- The text in a field that need not be there; `none` if it is no text. -/
def optionalField? : Option Toml.Value → Option (Option String)
  | none => some none
  | some (.text s) => some (some s)
  | some _ => none

namespace Config

/-- The section of the store. -/
def readDatabase? (v : Toml.Value) : Option DatabaseConfig := do
  match ← v.fields? ["path"] with
  | [path] => return { path := ← optionalField? path }
  | _ => none

/-- The section of a kind of records. -/
def readRepository? (v : Toml.Value) : Option RepositoryConfig := do
  match ← v.fields? ["query_generator"] with
  | [strategy] => return { strategy := ← textField? ({} : RepositoryConfig).strategy strategy }
  | _ => none

/-- The section of the log. -/
def readLogging? (v : Toml.Value) : Option LoggingConfig := do
  match ← v.fields? ["level", "dir"] with
  | [level, directory] =>
    return {
      level := ← textField? ({} : LoggingConfig).level level
      directory := ← optionalField? directory }
  | _ => none

/-- A section of a document, or the default if the section is missing. -/
def readSection {α : Type} (document : List (String × Toml.Value)) (name : String) (default : α)
    (read : Toml.Value → Option α) : Option α :=
  match document.lookup name with
  | none => some default
  | some v => read v

/-- The configuration in a document, its strategies unchecked. -/
def ofDocument? (document : List (String × Toml.Value)) : Option Config := do
  return {
    database := ← readSection document "database" {} readDatabase?
    alerts := ← readSection document "alert_repository" {} readRepository?
    expressions := ← readSection document "expression_repository" {} readRepository?
    logging := ← readSection document "logging" {} readLogging? }

/-- The configuration, if both strategies are known. -/
def check (c : Config) : Except ConfigError Config :=
  match Strategy.ofName c.alerts.strategy, Strategy.ofName c.expressions.strategy with
  | .ok _, .ok _ => .ok c
  | .error e, _ => .error (.strategy e)
  | _, .error e => .error (.strategy e)

/-- The configuration that a text denotes. -/
def ofString (s : String) : Except ConfigError Config :=
  match (Toml.readDocument? s).bind ofDocument? with
  | none => .error .malformed
  | some c => c.check

/-- The configuration in the bytes of a file, if there is one. -/
def ofFile (content : Option ByteArray) : Except ConfigError Config :=
  match content with
  | none => .error (.file .missing)
  | some bytes =>
    match String.fromUTF8? bytes with
    | none => .error (.file .notText)
    | some s => ofString s

end Config

end AlertRegistry
