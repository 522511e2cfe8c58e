import AlertRegistry.Config
import AlertRegistry.Files.Tree
import AlertRegistry.Version

/-!
# The log

Nothing is logged until the log is started with a level and a directory. It is started once: whoever
asks for it again must ask for the same level and the same directory. What is asked for is checked
first, the level before the directory. The first start makes the directory, hands the level to the
writer of lines and starts the writer; if one of these fails the log is not started and may be
started later. How they answer is up to the system on which the log is started, a `LogHost`.

A `Log` keeps the lines that its level takes, in a file in its directory.
-/

namespace AlertRegistry

/-- A level and a directory. -/
structure LogSettings where
  /-- The level. -/
  level : Level
  /-- The directory, an absolute path. -/
  directory : Path
deriving DecidableEq, Repr

/-- Why the log is not started as asked for. -/
inductive LoggingError where
  /-- There is no such level. -/
  | unknownLevel (name : String)
  /-- No directory is given. -/
  | emptyDirectory
  /-- The directory is not absolute. -/
  | relativeDirectory (path : String)
  /-- The directory cannot be made. -/
  | directory (path : Path) (reason : String)
  /-- The writer does not take the level. -/
  | invalidLevel (level : Level) (reason : String)
  /-- The writer does not start. -/
  | noWriter (reason : String)
  /-- The log is in another directory. -/
  | otherDirectory (current wanted : Path)
  /-- The log has another level. -/
  | otherLevel (current wanted : Level)
deriving DecidableEq, Repr

/-- The wording of the error. -/
def LoggingError.message : LoggingError → String
  | unknownLevel name =>
    "unsupported log level `" ++ name ++ "`; expected trace|debug|info|warn|error"
  | emptyDirectory => "log_dir cannot be empty"
  | relativeDirectory path => "log_dir must be an absolute path, got `" ++ path ++ "`"
  | directory path reason => "failed to create log directory `" ++ path.text ++ "`: " ++ reason
  | invalidLevel level reason =>
    "invalid log level `" ++ level.name ++ "`: " ++ reason
  | noWriter reason => "failed to start logger: " ++ reason
  | otherDirectory current wanted =>
    "logging already initialized at `" ++ current.text ++ "`; refusing to switch to `"
      ++ wanted.text ++ "`"
  | otherLevel current wanted =>
    "logging already initialized with level `" ++ current.name ++ "`; refusing to switch to `"
      ++ wanted.name ++ "`"

namespace LogSettings

/-- The settings that two texts ask for. -/
def read (level directory : String) : Except LoggingError LogSettings :=
  match Level.ofName? level with
  | none => .error (.unknownLevel (Level.normalize level))
  | some level =>
    let path : Path := ⟨Text.trim directory⟩
    if path.text.isEmpty then .error .emptyDirectory
    else if !path.isAbsolute then .error (.relativeDirectory path.text)
    else .ok { level, directory := path }

/-- Fails unless the wanted settings are those of the log that was started. -/
def agree (current wanted : LogSettings) : Except LoggingError Unit :=
  if !current.directory.same wanted.directory then
    .error (.otherDirectory current.directory wanted.directory)
  else if current.level ≠ wanted.level then .error (.otherLevel current.level wanted.level)
  else .ok ()

/-- The first line of a log. -/
def started (s : LogSettings) : Event :=
  ⟨.info, Event.describe "logging_init" "logging" "ok"
    [("level", s.level.name), ("log_dir", s.directory.text), ("version", version)]⟩

end LogSettings

/-- What a log is started with: how the system answers, and the files after its answer. -/
structure LogHost where
  /-- Makes all missing directories of an absolute path. -/
  makeDirectories : FileTree → Path → Except String Unit × FileTree
  /-- Hands a level to the writer of lines. -/
  setLevel : Level → Except String Unit
  /-- Starts the writer of lines. -/
  startWriter : FileTree → LogSettings → Except String Unit × FileTree

/-- A system that makes directories in its tree of files, where the writer takes every level and
always starts. -/
def LogHost.ordinary : LogHost where
  makeDirectories files path :=
    let (result, files) := files.makeDirectories path
    (result.mapError DirectoryError.message, files)
  setLevel _ := .ok ()
  startWriter files _ := (.ok (), files)

/-- A log, with the files among which it is. -/
structure Log where
  /-- The settings with which it was started. -/
  settings : Option LogSettings := none
  /-- The files. -/
  files : FileTree := {}
  /-- The lines that were taken. -/
  events : List Event := []

namespace Log

/-- The name of the log's file in its directory. -/
def fileName : String := "portal_store_rCURRENT.log"

/-- Takes the events that the level of the log takes. -/
def record (l : Log) (events : List Event) : Log :=
  match l.settings with
  | none => l
  | some s => { l with events := l.events ++ events.filter fun e => s.level.takes e.level }

/-- Starts the log, or checks that it was started with these settings. -/
def startWith (l : Log) (host : LogHost) (wanted : LogSettings) : Except LoggingError Unit × Log :=
  match l.settings with
  | some current => (current.agree wanted, l)
  | none =>
    match host.makeDirectories l.files wanted.directory with
    | (.error reason, files) => (.error (.directory wanted.directory reason), { l with files })
    | (.ok (), files) =>
      match host.setLevel wanted.level with
      | .error reason => (.error (.invalidLevel wanted.level reason), { l with files })
      | .ok () =>
        match host.startWriter files wanted with
        | (.error reason, files) => (.error (.noWriter reason), { l with files })
        | (.ok (), files) =>
          (.ok (), { l with settings := some wanted, files }.record [wanted.started])

/-- Starts the log with the settings that two texts ask for. -/
def start (l : Log) (level directory : String) (host : LogHost := .ordinary) :
    Except LoggingError Unit × Log :=
  match LogSettings.read level directory with
  | .error e => (.error e, l)
  | .ok wanted => l.startWith host wanted

/-- Starts the log that a configuration asks for, and tells whether it asks for one. -/
def startFromConfig (l : Log) (c : LoggingConfig) (host : LogHost := .ordinary) :
    Except LoggingError Bool × Log :=
  match c.directory with
  | none => (.ok false, l)
  | some directory =>
    let (result, l) := l.start c.level directory host
    (result.map fun _ => true, l)

/-- The place of the log's file, which is made when the first line is taken, unless there is a
directory of that name or the path of the file is too long. -/
def file? (l : Log) : Option (List String) :=
  match l.settings with
  | none => none
  | some s =>
    if l.events.isEmpty
        ∨ FileTree.maxPathSize < s.directory.text.utf8ByteSize + 1 + fileName.utf8ByteSize then none
    else
      match l.files.walk [] s.directory.parts with
      | .error _ => none
      | .ok place =>
        match l.files.entryAt? (place ++ [fileName]) with
        | some .directory => none
        | _ => some (place ++ [fileName])

/-- The files, the log's own among them, which is empty until its lines are written at the end. -/
def allFiles (l : Log) : FileTree :=
  match l.file? with
  | none => l.files
  | some file => if (l.files.entryAt? file).isSome then l.files else l.files.put file (.store {} {})

end Log

end AlertRegistry
