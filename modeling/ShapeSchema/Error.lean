import ShapeSchema.Json.Literal
import ShapeSchema.Shape.Kind

/-!
What can be wrong with a type description, and where. A defect is a cause with its data; its wording
is given in one place. A location is a label and the steps that lead from it to the defect.
-/

namespace ShapeSchema

/-- A step from a shape to a part of it. -/
inductive Step where
  /-- To a field or a variant. -/
  | member (name : String)
  /-- To the elements of an array or a set. -/
  | element
  /-- To one position of a tuple. -/
  | index (position : Nat)
  /-- To the values of a map or of further properties. -/
  | values
deriving DecidableEq

def Step.text : Step → String
  | member name => "." ++ name
  | element => "[]"
  | index position => "[" ++ toString position ++ "]"
  | values => "\x7b\x7d"

/-- A place in a type: where the walk begins and the steps of it. -/
structure Location where
  origin : String
  steps : List Step
deriving DecidableEq

namespace Location

def nowhere : Location := ⟨"", []⟩

def start (label : String) : Location := ⟨label, []⟩

def push (location : Location) (step : Step) : Location :=
  { location with steps := location.steps ++ [step] }

def text (location : Location) : String :=
  location.steps.foldl (fun text step => text ++ step.text) location.origin

end Location

inductive Defect where
  | unresolvedParameter (name : String)
  | notAShape (value : Json)
  | duplicateProperty (key : String)
  | duplicateVariant (key : String)
  | boundsOnVariant
  | boundsOnNonNumeric (label : String)
  | mapKey (kind : PrimitiveKind)
  | emptyTag
  | emptyTagOrContent
  | tagEqualsContent (tag : String)
  | noVariants
  | unmergeablePayload (key : String)
  | tagCollision (key tag : String)
  | invalidType (value : Json)
  | nestedBounds (type : String)
  | kindOnNonPrimitive (kind : PrimitiveKind) (type : String)
  | bareNone
  | literalType (text : String)
  | notReflectable (type : String)
  | keyNotPrimitive (type : String)
  | unresolvedAnnotations (owner missing : String)
  | parameterCount (owner : String) (expected actual : Nat)
  | elementCount (type : String)
  | twoLowerBounds
  | twoUpperBounds
  | boundNotNumber (bound type : String)
  | boundNotFinite (bound : String) (value : Number)
  | emptyRange (lower upper : Json)
  | emptyRename
  | unknownRenameRule (text : String) (known : List String)
  | unhashable (type : String)
  | notPart (type : String)
  | notContainer (type : String)
  | notMapping (type : String)
  | notSequence (type : String)
  | positionNotWhole (type : String)
deriving DecidableEq

/-- The families of defects: a shape that has no schema, a constraint that contradicts itself or has
the wrong type, and a value of a type that cannot be handled at all. -/
inductive DefectKind where
  | unsupportedShape
  | malformedConstraint
  | wrongType
deriving DecidableEq

namespace Defect

def kind : Defect → DefectKind
  | twoLowerBounds | twoUpperBounds | boundNotNumber .. | boundNotFinite .. | emptyRange ..
  | emptyRename | unknownRenameRule .. => .malformedConstraint
  | unhashable _ | notPart _ | notContainer _ | notMapping _ | notSequence _
  | positionNotWhole _ => .wrongType
  | _ => .unsupportedShape

def message : Defect → String
  | unresolvedParameter name =>
    "unresolved generic parameter '" ++ name ++ "'; bind it before deriving"
  | notAShape value => "not a shape: " ++ value.literal
  | duplicateProperty key => "duplicate property key '" ++ key ++ "'"
  | duplicateVariant key => "duplicate variant key '" ++ key ++ "'"
  | boundsOnVariant => "numeric bounds on a variant require a newtype payload"
  | boundsOnNonNumeric label =>
    "numeric bounds cannot apply to non-numeric shape '" ++ label ++ "'"
  | mapKey kind =>
    "map keys must display as text; '" ++ kind.name ++ "' keys are not supported"
  | emptyTag => "internal tag name must not be empty"
  | emptyTagOrContent => "adjacent tag and content names must not be empty"
  | tagEqualsContent tag =>
    "adjacent tag and content names must differ (both are '" ++ tag ++ "')"
  | noVariants => "an enum needs at least one variant"
  | unmergeablePayload key =>
    "internally tagged variant '" ++ key ++ "' must carry a struct or map payload"
  | tagCollision key tag =>
    "variant '" ++ key ++ "' has a field named like the tag '" ++ tag ++ "'"
  | invalidType value => "invalid type specification " ++ value.literal
  | nestedBounds type =>
    "bounds on " ++ type ++ " are only supported on fields, not nested inside containers"
  | kindOnNonPrimitive kind type =>
    "primitive kind " ++ kind.name ++ " cannot annotate " ++ type
  | bareNone => "None is only meaningful inside Optional[...]"
  | literalType text => "Literal types are not supported: " ++ text
  | notReflectable type => "cannot reflect " ++ type ++ "; register an explicit shape"
  | keyNotPrimitive type => "map keys must be primitive, got " ++ type
  | unresolvedAnnotations owner missing =>
    "cannot resolve annotations of " ++ owner ++ ": name '" ++ missing ++ "' is not defined"
  | parameterCount owner expected actual =>
    owner ++ " takes " ++ toString expected ++ " type parameter(s), got " ++ toString actual
  | elementCount type => type ++ " needs exactly one element type"
  | twoLowerBounds =>
    "both min_inclusive and min_exclusive are set; at most one lower bound is allowed"
  | twoUpperBounds =>
    "both max_inclusive and max_exclusive are set; at most one upper bound is allowed"
  | boundNotNumber bound type => bound ++ " must be a number, got " ++ type
  | boundNotFinite bound value => bound ++ " must be finite, got " ++ value.text "inf" "nan"
  | emptyRange lower upper =>
    "lower bound " ++ lower.literal ++ " and upper bound " ++ upper.literal ++ " admit no value"
  | emptyRename => "rename must be a non-empty string"
  | unknownRenameRule text known =>
    "unknown rename rule '" ++ text ++ "' (expected one of: " ++ ", ".intercalate known ++ ")"
  | unhashable type => "unhashable type: '" ++ type ++ "'"
  | notPart type => "'in <string>' requires string as left operand, not " ++ type
  | notContainer type => "argument of type '" ++ type ++ "' is not iterable"
  | notMapping type => "'" ++ type ++ "' object is not a mapping"
  | notSequence type => "Value after * must be an iterable, not " ++ type
  | positionNotWhole type =>
    if type = "str" then "string indices must be integers, not 'str'"
    else type ++ " indices must be integers or slices, not str"

end Defect

structure SchemaError where
  defect : Defect
  location : Location
deriving DecidableEq

namespace SchemaError

/-- The error as one text: the place, if it is known, and the wording. -/
def text (error : SchemaError) : String :=
  let place := error.location.text
  if place.isEmpty then error.defect.message else place ++ ": " ++ error.defect.message

end SchemaError
end ShapeSchema
