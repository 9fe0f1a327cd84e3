import ShapeSchema.CommandLine.Outcome
import ShapeSchema.Description.Module

/-!
The command line. A target `MODULE:NAME` is the class or shape `NAME` that the description in the
file `MODULE.json` declares.
-/

namespace ShapeSchema.CommandLine

def readEntry (path : String) : IO Entry := do
  try
    return .file (← IO.FS.readFile path)
  catch
    | .noFileOrDirectory .. => return .absent
    | _ => return .unreadable

/-- The module of a name, if its description can be read. -/
def loadModule (name : String) : IO (Option Module) := do
  match ← readEntry (name ++ ".json") with
  | .file text =>
    match (Json.read? text).map Description.readModule with
    | some (.ok contents) => return some contents
    | _ => return none
  | _ => return none

def writeFile (path text : String) : IO Unit := do
  let directory := "/".intercalate (path.splitOn "/").dropLast
  if directory ≠ "" then IO.FS.createDirAll directory
  IO.FS.writeFile path text

def userSettings : IO String := do
  let home := (← IO.getEnv "HOME").getD "."
  let directory := (← IO.getEnv "XDG_CONFIG_HOME").getD (home ++ "/.config")
  return directory ++ "/shape-schema/config.yaml"

/-- Runs a command, writes its files and prints its answer. -/
def execute (command : Command) : IO UInt32 := do
  let settingsPath ← userSettings
  let entries ← (command.files settingsPath).mapM fun path => return (path, ← readEntry path)
  let contents? ← match command.module? with
    | some name => loadModule name
    | none => pure none
  let outcome := command.run {
    entry := fun path => (entries.lookup path).getD .absent
    target? := fun target => do (← contents?).find? (← splitTarget? target).2
    settingsPath }
  for (path, text) in outcome.written do
    writeFile path text
  IO.print outcome.output
  for line in outcome.errors do
    IO.eprintln line
  return outcome.exit.toUInt32

end ShapeSchema.CommandLine

open ShapeSchema.CommandLine in
def main (arguments : List String) : IO UInt32 := do
  match Command.ofArguments? arguments with
  | some command => execute command
  | none =>
    IO.eprint usage
    return 2
