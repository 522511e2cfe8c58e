import AlertRegistry.Text.Blank
import AlertRegistry.Text.Letters

/-!
# Levels of log lines

Lines have a level, and a log takes those of its own level and all more severe ones. A level is read
in any case and with white space around it; `warning` is another name of `warn`.
-/

namespace AlertRegistry

/-- How severe a log line is, from the least to the most severe level. -/
inductive Level where
  /-- The finest detail. -/
  | trace
  /-- Detail. -/
  | debug
  /-- Ordinary events. -/
  | info
  /-- Refused work. -/
  | warn
  /-- Faults. -/
  | error
deriving DecidableEq, Repr

namespace Level

/-- The name of the level. -/
def name : Level → String
  | trace => "trace"
  | debug => "debug"
  | info => "info"
  | warn => "warn"
  | error => "error"

/-- The name of the level at the head of a line. -/
def label : Level → String
  | trace => "TRACE"
  | debug => "DEBUG"
  | info => "INFO"
  | warn => "WARN"
  | error => "ERROR"

/-- The place of the level in the order of severity. -/
def severity : Level → Nat
  | trace => 0
  | debug => 1
  | info => 2
  | warn => 3
  | error => 4

/-- A log of this level takes lines of the other one. -/
def takes (log line : Level) : Bool :=
  log.severity ≤ line.severity

/-- The text in which a level is looked up. -/
def normalize (s : String) : String :=
  Text.lower (Text.trim s)

/-- The level with a name. -/
def ofName? (s : String) : Option Level :=
  match normalize s with
  | "trace" => some trace
  | "debug" => some debug
  | "info" => some info
  | "warn" | "warning" => some warn
  | "error" => some error
  | _ => none

end Level

/-- The level of a log for which none is asked for. -/
def defaultLevel : Level := .debug

/-- A line for the log. -/
structure Event where
  /-- How severe it is. -/
  level : Level
  /-- What it says. -/
  text : String
deriving DecidableEq, Repr

namespace Event

/-- The level and the text. -/
def line (e : Event) : String :=
  e.level.label ++ " " ++ e.text

/-- The text of a line about one thing that a module did: the name of the event, the module, the
status, and further fields. -/
def describe (event module status : String) (fields : List (String × String)) : String :=
  " ".intercalate ((("event", event) :: ("module", module) :: ("status", status) :: fields).map
    fun f => f.1 ++ "=" ++ f.2)

end Event

end AlertRegistry
