import ShapeSchema.Settings.Reading
import ShapeSchema.Yaml.Text

/-!
Settings as the text of a file: writing all of them, and reading them back. A file that is missing
or holds nothing stands for the defaults.
-/

namespace ShapeSchema

inductive ConfigDefect where
  | malformed
  | notMapping
  | invalid (faults : List Fault)
deriving DecidableEq

def ConfigDefect.message : ConfigDefect → String
  | malformed => "invalid YAML"
  | notMapping => "top level must be a mapping"
  | invalid _ => "invalid configuration"

structure ConfigError where
  defect : ConfigDefect
  path : String
deriving DecidableEq

def ConfigError.text (error : ConfigError) : String :=
  error.path ++ ": " ++ error.defect.message

/-- Why settings cannot be loaded. Of the three causes only the first is an error of the file that
is reported as such. -/
inductive LoadFailure where
  | config (error : ConfigError)
  /-- A key at the top is no text. -/
  | keyNotText
  /-- A scalar is no value of the kind that its tag asks for. -/
  | outOfRange
deriving DecidableEq

namespace Settings

/-- The settings as a document, under the keys of a settings file. -/
def toDocument (settings : Settings) : Document :=
  [("derive", .obj [
      ("strict_objects", .bool settings.derive.strictObjects),
      ("cache_enabled", .bool settings.derive.cacheEnabled),
      ("default_int_kind", .str settings.derive.defaultIntKind.name)]),
    ("output", .obj [
      ("indent", .num (.int settings.output.indent)),
      ("wrap_validator", .bool settings.output.wrapValidator),
      ("validation_level", .str settings.output.validationLevel.name),
      ("validation_action", .str settings.output.validationAction.name)]),
    ("log_level", .str settings.logLevel.name)]

def fileText (settings : Settings) : String :=
  Yaml.documentText settings.toDocument

def isTextKey : Yaml.Value → Bool
  | .text _ => true
  | _ => false

def ofFileValue (coercions : Coercions) (path : String) : Yaml.Value → Except LoadFailure Settings
  | .null => .ok .default
  | .mapping pairs =>
    if pairs.all (isTextKey ·.1) then
      (coercions.readSettings pairs).mapError fun faults => .config ⟨.invalid faults, path⟩
    else .error .keyNotText
  | _ => .error (.config ⟨.notMapping, path⟩)

/-- The settings in the text of a file, the defaults if there is no such file, with what reads a
text as a value. -/
def loadWith (coercions : Coercions) (read : String → Except Yaml.Failure Yaml.Value)
    (path : String) : Option String → Except LoadFailure Settings
  | none => .ok .default
  | some text =>
    match read text with
    | .ok value => ofFileValue coercions path value
    | .error .malformed => .error (.config ⟨.malformed, path⟩)
    | .error .outOfRange => .error .outOfRange

/-- The settings in the text of a YAML file. Settings lie in mappings at most two deep. -/
def load : String → Option String → Except LoadFailure Settings :=
  loadWith .lenient (Yaml.Value.read 2)

end Settings
end ShapeSchema
