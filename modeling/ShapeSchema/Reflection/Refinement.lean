import ShapeSchema.Constraints

/-!
Refinements: what may stand beside a type expression. Most are values, which are the same if their
parts are; a field description is the same only as itself, so each one carries a label.
-/

namespace ShapeSchema

namespace Json

/-- The number that a scalar counts as: a truth value counts as one or zero. -/
def asNumber? : Json → Option Number
  | num value => some value
  | bool value => some (.int (if value then 1 else 0))
  | _ => none

/-- Whether two values are taken for the same: numbers and truth values by what they count as. -/
def alike (a b : Json) : Bool :=
  match a.asNumber?, b.asNumber? with
  | some x, some y => x.same y
  | none, none => a = b
  | _, _ => false

/-- The type of a value that cannot be looked up among others, as no container can. -/
def unhashable? (value : Json) : Option String :=
  if value.isScalar then none else some value.typeName

end Json

/-- The bounds that a refinement gives; each is any value or absent. -/
structure BoundSet where
  ge : Option Json
  gt : Option Json
  le : Option Json
  lt : Option Json
deriving DecidableEq

namespace BoundSet

def constraints (bounds : BoundSet) : Constraints :=
  ⟨bounds.ge, bounds.gt, bounds.le, bounds.lt, .none⟩

def values (bounds : BoundSet) : List (Option Json) :=
  [bounds.gt, bounds.ge, bounds.lt, bounds.le]

end BoundSet

/-- A description of a field. Each part may be left open. -/
structure FieldDescription where
  bounds : BoundSet
  multipleOf : Option Json
  /-- The key for reading and writing. -/
  alias? : Option String
  /-- The key for reading. -/
  validationAlias? : Option String
  /-- The key for writing. -/
  serializationAlias? : Option String
  /-- Whether the field is left out of stored documents. -/
  excluded? : Option Bool
deriving DecidableEq

namespace FieldDescription

def nothing : FieldDescription :=
  ⟨⟨none, none, none, none⟩, none, none, none, none, none⟩

def lastKey (keys : List (Option String)) : Option String :=
  (keys.reverse.findSome? id).filter (· ≠ "")

/-- The key under which a field is stored by its descriptions, if it is not its name. Later ones
win. -/
def storedKey? (name : String) (descriptions : List FieldDescription) : Option String :=
  let writing := lastKey (descriptions.map fun d => d.serializationAlias? <|> d.alias?)
  let common := lastKey (descriptions.map (·.alias?))
  (writing <|> common).filter (· ≠ name)

/-- Whether a field is left out by its descriptions. Later ones win. -/
def excludes (descriptions : List FieldDescription) : Bool :=
  (descriptions.reverse.findSome? (·.excluded?)).getD false

end FieldDescription

inductive Refinement where
  | ge (value : Json)
  | gt (value : Json)
  | le (value : Json)
  | lt (value : Json)
  | interval (bounds : BoundSet)
  /-- A description of a field, told apart from all others by its label. -/
  | field (label : Nat) (description : FieldDescription)
  /-- Another scalar kind. -/
  | kind (kind : PrimitiveKind)
  | constraints (constraints : Constraints)
  /-- Anything else, which is ignored. -/
  | other (value : Json)
deriving DecidableEq

namespace Refinement

/-- A bound of a refinement; null leaves it unset. -/
def bound? : Json → Option Json
  | .null => none
  | value => some value

def addedConstraints : Refinement → Constraints
  | ge value => { Constraints.none with minInclusive := bound? value }
  | gt value => { Constraints.none with minExclusive := bound? value }
  | le value => { Constraints.none with maxInclusive := bound? value }
  | lt value => { Constraints.none with maxExclusive := bound? value }
  | interval bounds => bounds.constraints
  | field _ description => description.bounds.constraints
  | constraints c => c
  | kind _ | other _ => .none

/-- The constraints of several refinements together; later ones win. -/
def allConstraints (refinements : List Refinement) : Constraints :=
  refinements.foldl (fun c refinement => c.merge refinement.addedConstraints) .none

def descriptions (refinements : List Refinement) : List FieldDescription :=
  refinements.filterMap fun refinement => match refinement with
    | field _ description => some description
    | _ => none

def sameValues (values others : List (Option Json)) : Bool :=
  values.length = others.length &&
    (values.zip others).all fun (a, b) => (a.getD .null).alike (b.getD .null)

def boundsOf (c : Constraints) : List (Option Json) :=
  c.bounds.map (·.2)

def same : Refinement → Refinement → Bool
  | .ge a, .ge b | .gt a, .gt b | .le a, .le b | .lt a, .lt b | .other a, .other b => a.alike b
  | .interval a, .interval b => sameValues a.values b.values
  | .field a described, .field b given => a = b && described = given
  | .kind a, .kind b => a = b
  | .constraints a, .constraints b => a.rename = b.rename && sameValues (boundsOf a) (boundsOf b)
  | _, _ => false

/-- The type of the first value of a refinement that cannot be looked up among others. -/
def unhashable? : Refinement → Option String
  | ge value | gt value | le value | lt value | other value => value.unhashable?
  | interval bounds => bounds.values.findSome? (·.bind Json.unhashable?)
  | constraints c => (boundsOf c).findSome? (·.bind Json.unhashable?)
  | field _ _ | kind _ => none

/-- The refinement with a label of its own, if it needs one. -/
def withLabel (label : Nat) : Refinement → Refinement
  | field _ description => field label description
  | refinement => refinement

def optionText (value : Option Json) : String :=
  (value.getD .null).literal

def callText (name : String) (arguments : List (String × String)) : String :=
  name ++ "(" ++ ", ".intercalate (arguments.map fun (key, value) => key ++ "=" ++ value) ++ ")"

def limitTexts (description : FieldDescription) : List String :=
  let limit (name key : String) (value : Option Json) : List String :=
    (value.map fun v => callText name [(key, v.literal)]).toList
  limit "Gt" "gt" description.bounds.gt ++ limit "Ge" "ge" description.bounds.ge ++
    limit "Lt" "lt" description.bounds.lt ++ limit "Le" "le" description.bounds.le ++
    limit "MultipleOf" "multiple_of" description.multipleOf

/-- The parts of a field description that are shown. A key for reading or for writing is one of them
if it is not the common one. -/
def descriptionParts (description : FieldDescription) : List (String × String) :=
  let common := description.alias?
  let reading := description.validationAlias?.filter (some · ≠ common)
  let writing := description.serializationAlias?.filter (some · ≠ common)
  let key (name : String) (value : Option String) : List (String × String) :=
    (value.map fun v => (name, (Json.str v).literal)).toList
  let anyKey := common.isSome || reading.isSome || writing.isSome
  let excluded := description.excluded?.map fun value => ("exclude", (Json.bool value).literal)
  let limits := limitTexts description
  key "alias" common ++ (if anyKey then [("alias_priority", "2")] else []) ++
    key "validation_alias" reading ++ key "serialization_alias" writing ++ excluded.toList ++
    if limits.isEmpty then [] else [("metadata", "[" ++ ", ".intercalate limits ++ "]")]

def text : Refinement → String
  | ge value => callText "Ge" [("ge", value.literal)]
  | gt value => callText "Gt" [("gt", value.literal)]
  | le value => callText "Le" [("le", value.literal)]
  | lt value => callText "Lt" [("lt", value.literal)]
  | interval bounds =>
    callText "Interval" [("gt", optionText bounds.gt), ("ge", optionText bounds.ge),
      ("lt", optionText bounds.lt), ("le", optionText bounds.le)]
  | field _ description =>
    callText "FieldInfo" <|
      [("annotation", "NoneType"), ("required", "True")] ++ descriptionParts description
  | kind k => "<PrimitiveKind." ++ k.name.toUpper ++ ": '" ++ k.name ++ "'>"
  | constraints c =>
    callText "Constraints" ((c.bounds.map fun (name, value) => (name, optionText value)) ++
      [("rename", optionText (c.rename.map .str))])
  | other value => value.literal

end Refinement
end ShapeSchema
