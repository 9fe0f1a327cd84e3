import ShapeSchema.CommandLine.Arguments
import ShapeSchema.CommandLine.Display
import ShapeSchema.Description.Module
import ShapeSchema.Json.Reader
import ShapeSchema.Json.Text
import ShapeSchema.Schema.Command
import ShapeSchema.Schema.Difference
import ShapeSchema.Settings.File

/-!
What commands answer. A command sees the files it names and finds its target by name; the files it
leaves behind are part of the answer.
-/

namespace ShapeSchema.CommandLine

inductive Entry where
  | absent
  | file (text : String)
  /-- Something that is no text file. -/
  | unreadable
deriving DecidableEq

/-- What a command sees of its surroundings. -/
structure Surroundings where
  /-- What stands at a path. -/
  entry : String → Entry
  /-- What a target stands for. -/
  target? : String → Option Target
  /-- The settings file that is used if none is named. -/
  settingsPath : String

structure Outcome where
  exit : Nat
  output : String
  /-- The lines for the error stream. -/
  errors : List String
  /-- The files to write, with their texts. -/
  written : List (String × String)
deriving DecidableEq

namespace Outcome

def done (output : String) : Outcome := ⟨0, output, [], []⟩

def failed (exit : Nat) (message : String) : Outcome := ⟨exit, "", ["Error: " ++ message], []⟩

/-- A command line that is not written as it has to be. -/
def misused : Outcome := ⟨2, "", [], []⟩

end Outcome

/-- A path without needless parts: no empty ones and none that stay where they are. -/
def cleanPath (path : String) : String :=
  let parts := (path.toList.splitOn '/').filter fun part => !part.isEmpty && part != ['.']
  let cleaned := "/".intercalate (parts.map String.ofList)
  let slashes := (path.toList.takeWhile (· == '/')).length
  if slashes = 2 then "//" ++ cleaned
  else if slashes ≠ 0 then "/" ++ cleaned
  else if parts.isEmpty then "."
  else cleaned

/-- The path of the settings file, a standard one if none is named. -/
def settingsFile (standard : String) (path? : Option String) : String :=
  (path?.map cleanPath).getD standard

/-- Goes on with the settings of a file; if it is absent, it is written with the defaults. -/
def withSettings (around : Surroundings) (path : String) (next : Settings → Outcome) : Outcome :=
  let start (text? : Option String) : Outcome :=
    match Settings.load path text? with
    | .ok settings => next settings
    | .error (.config error) => .failed 1 error.text
    | .error .keyNotText => ⟨1, "", [path ++ ": a key of the settings is no text"], []⟩
    | .error .outOfRange => ⟨1, "", [path ++ ": a value of the settings is out of range"], []⟩
  match around.entry path with
  | .file text => start (some text)
  | .absent =>
    let outcome := start none
    { outcome with written := (path, Settings.default.fileText) :: outcome.written }
  | .unreadable => ⟨1, "", [path ++ ": no text file"], []⟩

/-- The document that a schema is printed as: a command for a collection, a validator, or itself. -/
def printedDocument (options : DeriveOptions) (output : OutputSettings) (schema : Document) :
    Except CommandError Document :=
  match options.collection?.filter (· ≠ "") with
  | some name =>
    collectionCommand (if options.modify then .modify else .create) name (.obj schema)
      output.validationLevel.name output.validationAction.name
  | none =>
    .ok (if options.wrap?.getD output.wrapValidator then asValidator (.obj schema) else schema)

def runDerive (around : Surroundings) (options : DeriveOptions) : Outcome :=
  withSettings around (settingsFile around.settingsPath options.config?) fun settings =>
    if options.modify && (options.collection?.filter (· ≠ "")).isNone then
      .failed 1 "--collmod requires --collection"
    else
      match around.target? options.target with
      | none => .failed 1 ("cannot load " ++ options.target)
      | some target =>
        match target.schema settings.derive with
        | .error error =>
          if error.defect.kind = .wrongType then ⟨1, "", [options.target ++ ": " ++ error.text], []⟩
          else .failed 1 error.text
        | .ok schema =>
          match printedDocument options settings.output schema with
          | .error error => .failed 1 error.message
          | .ok doc =>
            let indent := options.indent?.getD settings.output.indent
            .done (Json.text (.ofIndent (some indent)) (.obj doc) ++ "\n")

def readDocument? (around : Surroundings) (path : String) : Option Json :=
  match around.entry path with
  | .file text => Json.read? text
  | _ => none

def differenceLines (found : List String) : String :=
  toString found.length ++ " difference(s):\n" ++
    String.join (found.map fun line => Display.text 2 line ++ "\n")

def runCompare (around : Surroundings) (left right : String) (unordered : List String) : Outcome :=
  let unreadable (path : String) : Outcome := .failed 2 ("cannot read " ++ path)
  let left := cleanPath left
  let right := cleanPath right
  match readDocument? around left with
  | none => unreadable left
  | some a =>
    match readDocument? around right with
    | none => unreadable right
    | some b =>
      match documentDiff a b unordered none with
      | [] => .done "Documents are equal.\n"
      | found => ⟨1, differenceLines (found.map (·.text)), [], []⟩

def runConfig (around : Surroundings) (path? : Option String) : Outcome :=
  let path := settingsFile around.settingsPath path?
  withSettings around path fun settings => .done ("# " ++ path ++ "\n" ++ settings.fileText)

def usage : String :=
  String.join ([
    "Usage: shape-schema COMMAND [ARGUMENTS]",
    "",
    "  derive MODULE:NAME [--validator|--raw] [--collection NAME] [--collmod]",
    "         [--indent N] [--config FILE]",
    "  compare LEFT RIGHT [--unordered KEY]...",
    "  config [--config FILE]"].map (· ++ "\n"))

def Command.files (settingsPath : String) : Command → List String
  | .derive options => [settingsFile settingsPath options.config?]
  | .compare left right _ => [cleanPath left, cleanPath right]
  | .config path? => [settingsFile settingsPath path?]
  | .help => []

def Command.module? : Command → Option String
  | .derive options => (splitTarget? options.target).map (·.1)
  | _ => none

def Command.run (around : Surroundings) : Command → Outcome
  | .derive options => runDerive around options
  | .compare left right unordered => runCompare around left right unordered
  | .config path? => runConfig around path?
  | .help => .done usage

def run (around : Surroundings) (arguments : List String) : Outcome :=
  match Command.ofArguments? arguments with
  | some command => command.run around
  | none => .misused

end ShapeSchema.CommandLine
