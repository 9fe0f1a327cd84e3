import ShapeSchema.Description.Reader
import ShapeSchema.Reflection

/-!
Reading type expressions and declared classes from their JSON descriptions.
-/

namespace ShapeSchema.Description

def standardClass? : String → Option StandardClass
  | "int" => some .int
  | "float" => some .float
  | "str" => some .str
  | "bool" => some .bool
  | "bytes" => some .bytes
  | "bytearray" => some .bytearray
  | "object" => some .object
  | "complex" => some .complex
  | "dict" => some .dict
  | "list" => some .list
  | "set" => some .set
  | "frozenset" => some .frozenset
  | "tuple" => some .tuple
  | "type" => some .type
  | "any" => some .any
  | "uuid" => some .uuid
  | "datetime" => some .datetime
  | "date" => some .date
  | "time" => some .time
  | "decimal" => some .decimal
  | "abc.Sequence" => some .abcSequence
  | "abc.MutableSequence" => some .abcMutableSequence
  | "abc.Set" => some .abcSet
  | "abc.MutableSet" => some .abcMutableSet
  | "abc.Mapping" => some .abcMapping
  | "abc.MutableMapping" => some .abcMutableMapping
  | "abc.Iterable" => some .abcIterable
  | _ => none

def containerAlias? : String → Option ContainerAlias
  | "typing.List" => some .list
  | "typing.Dict" => some .dict
  | "typing.Set" => some .set
  | "typing.FrozenSet" => some .frozenSet
  | "typing.Tuple" => some .tuple
  | _ => none

def readHead (name : String) : Except ReadError TypeHead :=
  match name.toList, standardClass? name, containerAlias? name with
  | '@' :: rest, _, _ => .ok (.declared (String.ofList rest))
  | _, some container, _ => .ok (.standard container)
  | _, none, some container => .ok (.synonym container)
  | _, none, none => .error (.form name)

def readBounds (json : Json) : BoundSet where
  ge := (setMember? "ge" json).map readBound
  gt := (setMember? "gt" json).map readBound
  le := (setMember? "le" json).map readBound
  lt := (setMember? "lt" json).map readBound

def readFieldDescription (json : Json) : FieldDescription where
  bounds := readBounds json
  multipleOf := setMember? "multiple_of" json
  alias? := textOf "alias"
  validationAlias? := textOf "validation_alias"
  serializationAlias? := textOf "serialization_alias"
  excluded? := match member? "exclude" json with
    | some (.bool value) => some value
    | _ => none
where
  /-- The text under a key. -/
  textOf (key : String) : Option String :=
    (textMember key json).toOption

def readRefinement : Json → Except ReadError Refinement
  | .obj [("ge", value)] => .ok (.ge (readBound value))
  | .obj [("gt", value)] => .ok (.gt (readBound value))
  | .obj [("le", value)] => .ok (.le (readBound value))
  | .obj [("lt", value)] => .ok (.lt (readBound value))
  | .obj [("interval", bounds)] => .ok (.interval (readBounds bounds))
  | .obj [("field", description)] => .ok (.field 0 (readFieldDescription description))
  | .obj [("kind", kind)] => .kind <$> readKind kind
  | .obj [("constraints", c)] => .ok (.constraints (readConstraints c))
  | .obj [("other", value)] => .ok (.other value)
  | _ => .error (.form "meta")

mutual
def readTypeTerm : Json → Except ReadError TypeTerm
  | .str "none" => .ok .none
  | .str "ellipsis" => .ok .ellipsis
  | .str name => .named <$> readHead name
  | .obj [("app", .str name), ("args", .arr arguments)]
  | .obj [("args", .arr arguments), ("app", .str name)] => do
    return .applied (← readHead name) (← readTypeTerms arguments)
  | .obj [("optional", inner)] => .optional <$> readTypeTerm inner
  | .obj [("union", .arr members)] => .union <$> readTypeTerms members
  | .obj [("pipe", .arr members)] => .bars <$> readTypeTerms members
  | .obj [("literal", .arr values)] => .ok (.literal values)
  | .obj [("typevar", .str name)] => .ok (.parameter name)
  | .obj [("annotated", base), ("meta", .arr refinements)]
  | .obj [("meta", .arr refinements), ("annotated", base)] => do
    return .annotated (← readTypeTerm base) (← refinements.mapM readRefinement)
  | _ => .error (.form "type")

def readTypeTerms : List Json → Except ReadError (List TypeTerm)
  | [] => .ok []
  | json :: rest => do return (← readTypeTerm json) :: (← readTypeTerms rest)
end

/-- The text under a key, if there is one that is not empty. -/
def textMember? (key : String) (json : Json) : Option String :=
  match member? key json with
  | some (.str text) => if text = "" then none else some text
  | _ => none

/-- A field of a class, none if the class does not keep it. -/
def readClassField? (form : ClassForm) (owner : String) (json : Json) :
    Except ReadError (Option ClassField) := do
  let declared ← textMember "name" json
  let term ← readTypeTerm ((member? "type" json).getD .null)
  match form.fieldName? owner declared with
  | none => return none
  | some name =>
    if h : name = "" then throw (.part .emptyFieldName)
    else
      let (constraints, description) := match form with
        | .model _ =>
          let description := readFieldDescription json
          (description.bounds.constraints, description)
        | _ => (constraintsMember "c" json, .nothing)
      return some { name, term, constraints, description, name_ne_empty := h }

def textsMember (key : String) (json : Json) : Except ReadError (List String) := do
  (← listMember key json).mapM fun value => match value with
    | .str text => .ok text
    | _ => .error (.form key)

/-- What a model says about further values. -/
def readModelExtra (json : Json) : Option Bool :=
  match member? "extra" json with
  | some (.str policy) => some (policy == "allow")
  | _ => none

/-- The name of a base class, with or without the mark of a reference. -/
def readBase? (json : Json) : Option String :=
  (textMember? "base" json).map fun name => match name.toList with
    | '@' :: rest => String.ofList rest
    | _ => name

def readForm (json : Json) : Except ReadError ClassForm := do
  match ← textMember "kind" json with
  | "dataclass" => return .record (← textsMember "params" json)
  | "model" => return .model (readModelExtra json)
  | _ => return .plain

def readClass (json : Json) : Except ReadError ClassDeclaration := do
  let name ← textMember "name" json
  let form ← readForm json
  let fields ← match form with
    | .plain => pure []
    | form => do (← listMember "fields" json).filterMapM (readClassField? form name)
  return ⟨name, readBase? json, form, fields⟩

end ShapeSchema.Description
