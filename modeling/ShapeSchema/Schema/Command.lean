import ShapeSchema.Json.Literal
import ShapeSchema.Settings

/-!
The commands that give a collection its validator, as documents.
-/

namespace ShapeSchema

inductive CollectionVerb where
  | create
  | modify
deriving DecidableEq

def CollectionVerb.key : CollectionVerb → String
  | create => "create"
  | modify => "collMod"

inductive CommandError where
  | emptyName
  | unknownLevel (text : String)
  | unknownAction (text : String)
deriving DecidableEq

namespace CommandError

def choices (names : List String) : String :=
  "(" ++ ", ".intercalate (names.map fun name => (Json.str name).literal) ++ ")"

def message : CommandError → String
  | emptyName => "collection name must not be empty"
  | unknownLevel text =>
    "validation level must be one of " ++ choices (ValidationLevel.all.map (·.name)) ++
      ", got '" ++ text ++ "'"
  | unknownAction text =>
    "validation action must be one of " ++ choices (ValidationAction.all.map (·.name)) ++
      ", got '" ++ text ++ "'"

end CommandError

def asValidator (schema : Json) : Document :=
  [("$jsonSchema", schema)]

/-- The command that gives a collection a validator, with a level and an action by name. -/
def collectionCommand (verb : CollectionVerb) (name : String) (schema : Json)
    (level action : String) : Except CommandError Document :=
  if name = "" then .error .emptyName
  else if !(ValidationLevel.all.map (·.name)).contains level then .error (.unknownLevel level)
  else if !(ValidationAction.all.map (·.name)).contains action then .error (.unknownAction action)
  else .ok [(verb.key, .str name), ("validator", .obj (asValidator schema)),
    ("validationLevel", .str level), ("validationAction", .str action)]

end ShapeSchema
