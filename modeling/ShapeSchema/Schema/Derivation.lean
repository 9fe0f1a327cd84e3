import ShapeSchema.Schema.Fragment
import ShapeSchema.Shape

/-!
Deriving the schema of a shape. The schema has the structure of the stored values; a named type that
is met again while it is being expanded yields a placeholder, so that recursive types end.

The walk takes the list of nodes that are being expanded. It is written once for any monad with
errors; a policy says what else happens where a nominal node is expanded or cut, which is nothing in
the plain derivation `Context.derive?`.
-/

namespace ShapeSchema

/-- What happens around a nominal node. -/
structure Policy (m : Type → Type) where
  /-- Around the expansion of a node. -/
  expand : (node : Shape) → m Document → m Document
  /-- Where a node is met while it is being expanded. -/
  cut : (node : Shape) → m Unit

/-- A graph and what structs admit that do not say. -/
structure Context where
  graph : Graph
  /-- Whether further properties are refused unless a struct asks for them. -/
  strict : Bool

namespace Context

variable {m : Type → Type} [Monad m] [MonadExceptOf SchemaError m]

def fail {α : Type} (place : Location) (defect : Defect) : m α :=
  throw ⟨defect, place⟩

/-- A result whose defect, if it has one, is at a place. -/
def located {α : Type} (place : Location) : Except Defect α → m α
  | .ok value => pure value
  | .error defect => fail place defect

/-- The schema with the bounds of the constraints, for a number below any wrappers. A lower bound
takes the place of the implicit one. -/
def applyBounds (context : Context) (shape : Shape) (c : Constraints) (doc : Document) :
    Except Defect Document :=
  match shape.unwrapped with
  | .primitive kind =>
    if kind.isNumeric then
      let base := if c.hasLowerBound then (doc.remove "minimum").remove "exclusiveMinimum" else doc
      .ok (base.update c.boundKeywords)
    else .error (.boundsOnNonNumeric kind.name)
  | target => .error (.boundsOnNonNumeric (context.graph.describe target))

/-- Whether the properties of a payload can stand beside a tag: it is a struct or a map, possibly
under named wrappers. -/
def isObjectPayload (context : Context) (shape : Shape) : Bool :=
  match shape.underlying with
  | .map .. => true
  | .declared index =>
    match context.graph.declaration? index with
    | some (.struct _) => true
    | _ => false
  | _ => false

/-- What stands for a declared type that is being expanded already. -/
def placeholder (context : Context) (index : Nat) : Document :=
  match context.graph.declaration? index with
  | some (.struct _) => Schema.anyObject
  | some (.tuple _) => Schema.anyArray
  | _ => []

section Parts

variable (context : Context) (child : Shape → Location → m Document)

/-- The schema of a value with constraints of its own. -/
def constrained (shape : Shape) (c : Constraints) (place : Location) : m Document := do
  located place c.check
  let doc ← child shape place
  if c.hasBounds then located place (context.applyBounds shape c doc) else pure doc

structure Property where
  key : String
  schema : Document
  required : Bool

/-- The properties of fields, given the keys in use. -/
def properties (rule : Option RenameRule) (place : Location) :
    (used : List String) → List Field → m (List Property)
  | _, [] => pure []
  | used, field :: rest => do
    let key := fieldKey field.name field.constraints.rename rule
    if key ∈ used then
      fail place (.duplicateProperty key)
    let schema ← context.constrained child field.shape field.constraints
      (place.push (.member field.name))
    let more ← properties rule place (key :: used) rest
    return ⟨key, schema, !field.shape.isOptional⟩ :: more

def objectSchema (properties : List Property) (additional : Json) : Document :=
  let required := (properties.filter (·.required)).map (Json.str ·.key)
  [("type", .str "object"),
    ("properties", .obj (properties.map fun p => (p.key, .obj p.schema)))] ++
    (if required.isEmpty then [] else [("required", .arr required)]) ++
    [("additionalProperties", additional)]

/-- The schema of what a struct has beyond its fields. -/
def additional (extra : Extra) (place : Location) : m Json :=
  match extra with
  | .unspecified => pure (.bool !context.strict)
  | .allowed allowed => pure (.bool allowed)
  | .values shape => return .obj (← child shape (place.push .values))

def structSchema (fields : List Field) (rule : Option RenameRule) (extra : Extra)
    (place : Location) : m Document := do
  let listed ← context.properties child rule place [] fields
  return objectSchema listed (← context.additional child extra place)

/-- The schemas of the positions of a tuple, from one on. -/
def elements (place : Location) : (position : Nat) → List Shape → m (List Document)
  | _, [] => pure []
  | position, shape :: rest => do
    let schema ← child shape (place.push (.index position))
    let more ← elements place (position + 1) rest
    return schema :: more

def tupleSchema (shapes : List Shape) (place : Location) : m Document := do
  return Schema.tuple (← elements child place 0 shapes)

/-- A variant with its key and the schema of its payload. Bounds need a single payload. -/
def encodedVariant (rule : Option RenameRule) (place : Location) (variant : Variant) :
    m EncodedVariant := do
  let key := variantKey variant.name variant.constraints.rename rule
  let inside := place.push (.member variant.name)
  match variant.payload with
  | .newtype shape =>
    let schema ← context.constrained child shape variant.constraints inside
    return ⟨key, some (.obj schema), context.isObjectPayload shape⟩
  | payload =>
    if variant.constraints.hasBounds then
      fail inside .boundsOnVariant
    match payload with
    | .tuple shapes => return ⟨key, some (.obj (← tupleSchema child shapes inside)), false⟩
    | .struct fields =>
      let schema ← context.structSchema child fields none .unspecified inside
      return ⟨key, some (.obj schema), true⟩
    | _ => return ⟨key, none, false⟩

/-- The variants of an enum, given the keys in use. -/
def encodedVariants (rule : Option RenameRule) (place : Location) :
    (used : List String) → List Variant → m (List EncodedVariant)
  | _, [] => pure []
  | used, variant :: rest => do
    let encoded ← context.encodedVariant child rule place variant
    if encoded.key ∈ used then
      fail place (.duplicateVariant encoded.key)
    let more ← encodedVariants rule place (encoded.key :: used) rest
    return encoded :: more

def enumSchema (type : Enum) (place : Location) : m Document := do
  let variants ← context.encodedVariants child type.renameAll place [] type.variants
  located place (type.tagging.encodeUnion variants)

def declarationSchema (type : Declaration) (place : Location) : m Document :=
  match type with
  | .struct type => context.structSchema child type.fields type.renameAll type.extra place
  | .tuple type => tupleSchema child type.elements place
  | .enum type => context.enumSchema child type place

end Parts

def unopened (graph : Graph) (active : List Shape) : Nat :=
  (List.range graph.declarations.size).countP fun index => .declared index ∉ active

theorem unopened_cons_newtype (graph : Graph) (active : List Shape) (label : Nat) (name : String)
    (inner : Shape) :
    unopened graph (.newtype label name inner :: active) = unopened graph active := by
  simp [unopened]

theorem unopened_cons_declared (graph : Graph) (active : List Shape) (index : Nat)
    (isDeclared : index < graph.declarations.size) (notActive : .declared index ∉ active) :
    unopened graph (.declared index :: active) < unopened graph active := by
  unfold unopened
  generalize graph.declarations.size = size at isDeclared
  induction size with
  | zero => omega
  | succ size ih =>
    have fewer (xs : List Nat) :
        xs.countP (fun i => decide (Shape.declared i ∉ Shape.declared index :: active)) ≤
          xs.countP (fun i => decide (Shape.declared i ∉ active)) :=
      List.countP_mono_left (by simp)
    rw [List.range_succ, List.countP_append, List.countP_append]
    by_cases last : index = size
    · have := fewer (List.range size)
      have now : [size].countP
          (fun i => decide (Shape.declared i ∉ Shape.declared index :: active)) = 0 := by
        simp [last]
      have before : [size].countP (fun i => decide (Shape.declared i ∉ active)) = 1 := by
        simpa [last] using notActive
      omega
    · have := ih (by omega)
      have := fewer [size]
      omega

theorem isDeclared_of_declaration? {graph : Graph} {index : Nat} {type : Declaration}
    (found : graph.declaration? index = some type) : index < graph.declarations.size :=
  (Array.getElem?_eq_some_iff.mp found).1

/-- The schema of a shape at a place, given the nominal nodes that are being expanded. -/
def walk (context : Context) (policy : Policy m) (active : List Shape) (shape : Shape)
    (place : Location) : m Document :=
  match shape with
  | .primitive kind => pure (Schema.primitive kind)
  | .optional _ inner => do
    located place (Schema.widenNullable (← context.walk policy active inner place))
  | .array _ element => do
    return Schema.array (← context.walk policy active element (place.push .element))
  | .set _ element => do
    return Schema.set (← context.walk policy active element (place.push .element))
  | .fixedArray _ element length => do
    return Schema.fixedArray (← context.walk policy active element (place.push .element)) length
  | .map _ key value => do
    let values ← context.walk policy active value (place.push .values)
    located place (Schema.map key (.obj values))
  | .newtype label name inner =>
    let node := .newtype label name inner
    if node ∈ active then do
      policy.cut node
      return []
    else policy.expand node (context.walk policy (node :: active) inner place)
  | .document => pure Schema.anyObject
  | .objectId => pure Schema.objectId
  | .unit _ => pure Schema.unit
  | .generic _ name => fail place (.unresolvedParameter name)
  | .declared index =>
    let node := .declared index
    if node ∈ active then do
      policy.cut node
      return context.placeholder index
    else
      match _found : context.graph.declaration? index with
      | some type =>
        policy.expand node
          (context.declarationSchema
            (fun inner there => context.walk policy (node :: active) inner there) type place)
      | none => fail place (.notAShape .null)
  | .raw value => fail place (.notAShape value)
termination_by (unopened context.graph active, shape)
decreasing_by
  · exact .right _ (by rw [Shape.optional.sizeOf_spec]; omega)
  · exact .right _ (by rw [Shape.array.sizeOf_spec]; omega)
  · exact .right _ (by rw [Shape.set.sizeOf_spec]; omega)
  · exact .right _ (by rw [Shape.fixedArray.sizeOf_spec]; omega)
  · exact .right _ (by rw [Shape.map.sizeOf_spec]; omega)
  · rw [unopened_cons_newtype]
    exact .right _ (by rw [Shape.newtype.sizeOf_spec]; omega)
  · exact .left _ _ (unopened_cons_declared _ _ _ (isDeclared_of_declaration? _found) ‹_›)

/-- A declared type is expanded below itself. -/
theorem walk_declared (context : Context) (policy : Policy m) (active : List Shape) (index : Nat)
    (place : Location) :
    context.walk policy active (.declared index) place =
      if .declared index ∈ active then do
        policy.cut (.declared index)
        return context.placeholder index
      else
        match context.graph.declaration? index with
        | some type =>
          policy.expand (.declared index)
            (context.declarationSchema
              (context.walk policy (.declared index :: active)) type place)
        | none => fail place (.notAShape .null) := by
  rw [walk]
  split
  · rfl
  · split <;> simp_all

def root (context : Context) (policy : Policy m) (shape : Shape) (c : Constraints) : m Document :=
  context.constrained (context.walk policy []) shape c (.start (context.graph.describe shape))

end Context

/-- Nothing happens around the nodes. -/
def Policy.plain : Policy (Except SchemaError) where
  expand _ body := body
  cut _ := pure ()

/-- The schema of a shape with constraints, derived without a cache. -/
def Context.derive? (context : Context) (shape : Shape) (c : Constraints) :
    Except SchemaError Document :=
  context.root Policy.plain shape c

end ShapeSchema
