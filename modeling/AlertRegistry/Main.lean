import AlertRegistry.Inspect

/-!
# The command line

The program inspects the store that a configuration file names, and prints what it finds. Without a
file the defaults hold. It exits with 1 if there is nothing to tell.
-/

namespace AlertRegistry

/-- The path of a place. -/
def placePath (place : List String) : String :=
  "/" ++ "/".intercalate place

/-- What a place of the file system holds: an empty file is a new store. -/
def probe (place : List String) : IO (Option Entry) := do
  try
    let bytes ← IO.FS.readBinFile (placePath place)
    return some (if bytes.isEmpty then .store {} {} else .file)
  catch
    | .inappropriateType .. => return some .directory
    | _ => return none

/-- What is found at places and on the way to them. -/
def survey (places : List (List String)) : IO FileTree := do
  let passed := places.flatMap fun place => (List.range (place.length + 1)).map (place.take ·)
  let mut entries := []
  for place in passed.eraseDups do
    if let some entry ← probe place then entries := (place, entry) :: entries
  return { entries }

/-- The configuration in a file. -/
def load (path : String) : IO (Except ConfigError Config) := do
  let content ← try some <$> IO.FS.readBinFile path catch _ => pure none
  return Config.ofFile content

/-- Writes the lines that the log took. -/
def writeLog (l : Log) : IO Unit := do
  if let some file := l.file? then
    IO.FS.createDirAll (placePath file.dropLast)
    IO.FS.writeFile (placePath file) (String.join (l.events.map fun e => e.line ++ "\n"))

/-- Inspects the store of a configuration. -/
def run (c : Config) : IO UInt32 := do
  let place := Path.parts ⟨toString (← IO.currentDir)⟩
  let location := c.database.path.bind Location.ofName?
  let path : Path := ⟨((location.map Location.path).bind Text.ofBytes?).getD ""⟩
  let directory : Path := ⟨c.logging.directory.getD ""⟩
  let files ← survey (path.trail place ++ directory.trail place)
  let elapsed ← IO.monoMsNow
  let found := inspect c place ((← IO.monoMsNow) - elapsed) { files }
  writeLog found.log
  match found.lines with
  | none => return 1
  | some lines =>
    lines.forM IO.println
    return 0

end AlertRegistry

/-- Reads the configuration named by the first argument, if there is one, and inspects its store. -/
def main (args : List String) : IO UInt32 := do
  match args with
  | [] => AlertRegistry.run {}
  | path :: _ =>
    match ← AlertRegistry.load path with
    | .ok c => AlertRegistry.run c
    | .error _ => return 1
