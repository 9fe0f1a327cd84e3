import ShapeSchema.Constraints
import ShapeSchema.Naming
import ShapeSchema.Schema.Tagging

/-!
The shapes of stored types. A shape is a chain of wrappers that ends in a leaf or in a declared
type. Structs, tuples and enums are declared in a graph and referred to by number, so that they can
refer to each other and to themselves; every cycle runs through one of them.

Two shapes with equal structure can still be two different types. The nodes of a graph are therefore
told apart by labels, and equality of shapes is identity of nodes.
-/

namespace ShapeSchema

/-- A node of a shape graph. -/
inductive Shape where
  | primitive (kind : PrimitiveKind)
  | optional (label : Nat) (inner : Shape)
  | array (label : Nat) (element : Shape)
  | set (label : Nat) (element : Shape)
  | fixedArray (label : Nat) (element : Shape) (length : Nat)
  | map (label : Nat) (key : PrimitiveKind) (value : Shape)
  /-- A named wrapper around a single value. -/
  | newtype (label : Nat) (name : String) (inner : Shape)
  /-- An embedded document of any content. -/
  | document
  /-- The native identifier of the database. -/
  | objectId
  /-- A named type without fields. -/
  | unit (name : String)
  /-- A parameter that has to be replaced before a schema is derived. -/
  | generic (label : Nat) (name : String)
  /-- A struct, tuple or enum of the graph. -/
  | declared (index : Nat)
  /-- A value that is no shape. -/
  | raw (value : Json)
deriving DecidableEq, Inhabited

structure Field where
  name : String
  shape : Shape
  constraints : Constraints
  name_ne_empty : name ≠ ""
deriving DecidableEq

/-- What values a struct has beyond its fields. -/
inductive Extra where
  /-- As configured. -/
  | unspecified
  | allowed (allowed : Bool)
  /-- Values of one shape. -/
  | values (shape : Shape)
deriving DecidableEq, Inhabited

/-- The further values that a shape stands for. A truth value in its place says whether there are
any, and nothing in its place leaves that open. -/
def Extra.ofShape : Shape → Extra
  | .raw .null => unspecified
  | .raw (.bool allows) => allowed allows
  | shape => values shape

inductive Payload where
  | unit
  | newtype (shape : Shape)
  | tuple (elements : List Shape)
  | struct (fields : List Field)
deriving DecidableEq

structure Variant where
  name : String
  payload : Payload
  constraints : Constraints
  name_ne_empty : name ≠ ""
deriving DecidableEq

structure Struct where
  name : String
  fields : List Field
  renameAll : Option RenameRule
  extra : Extra
deriving DecidableEq

/-- A record with positions; it may have no name. -/
structure Tuple where
  name : Option String
  elements : List Shape
deriving DecidableEq

/-- A tagged union; the rule is for the names of its variants. -/
structure Enum where
  name : String
  variants : List Variant
  tagging : Tagging
  renameAll : Option RenameRule
deriving DecidableEq

inductive Declaration where
  | struct (type : Struct)
  | tuple (type : Tuple)
  | enum (type : Enum)
deriving DecidableEq

/-- The declared types, referred to by position, and the first label that no node has. -/
structure Graph where
  declarations : Array Declaration
  labels : Nat
deriving DecidableEq

namespace Graph

def empty : Graph := ⟨#[], 0⟩

instance : Inhabited Graph := ⟨empty⟩

def declaration? (graph : Graph) (index : Nat) : Option Declaration :=
  graph.declarations[index]?

def freshLabel (graph : Graph) : Nat × Graph :=
  (graph.labels, { graph with labels := graph.labels + 1 })

def declare (graph : Graph) (type : Declaration) : Nat × Graph :=
  (graph.declarations.size, { graph with declarations := graph.declarations.push type })

def define (graph : Graph) (index : Nat) (type : Declaration) : Graph :=
  { graph with declarations := graph.declarations.setIfInBounds index type }

end Graph

namespace Shape

/-- The shapes whose identity matters while a schema is derived: named wrappers and declared
types. -/
def isNominal : Shape → Bool
  | newtype .. | declared _ => true
  | _ => false

def isOptional : Shape → Bool
  | optional .. => true
  | _ => false

/-- The shape below all optional and named wrappers. -/
def unwrapped : Shape → Shape
  | optional _ inner | newtype _ _ inner => inner.unwrapped
  | shape => shape

/-- The shape below all named wrappers. -/
def underlying : Shape → Shape
  | newtype _ _ inner => inner.underlying
  | shape => shape

end Shape

/-- A name, or what stands for it if there is none. -/
def orElseName (name fallback : String) : String :=
  if name = "" then fallback else name

def Declaration.describe : Declaration → String
  | .struct type => orElseName type.name "Struct"
  | .tuple type => orElseName (type.name.getD "") "TupleStruct"
  | .enum type => orElseName type.name "Enum"

/-- A short label of a shape, where locations begin. -/
def Graph.describe (graph : Graph) : Shape → String
  | .primitive kind => kind.name
  | .optional .. => "Optional"
  | .array .. => "Array"
  | .set .. => "Set"
  | .fixedArray .. => "FixedArray"
  | .map .. => "Map"
  | .newtype _ name _ => orElseName name "Newtype"
  | .document => "Document"
  | .objectId => "ObjectId"
  | .unit name => orElseName name "UnitStruct"
  | .generic _ name => orElseName name "GenericParam"
  | .declared index => ((graph.declaration? index).map Declaration.describe).getD "NoneType"
  | .raw value => value.typeName

/-- What a part of a type description cannot be built from. -/
inductive DescriptionError where
  | emptyFieldName
  | emptyVariantName
  | unitPayload (variant : String)
  | newtypePayload (variant : String)
  | negativeLength (length : Int)
  | unknownKind (text : String)
  | keyNotKind (value : Json)
deriving DecidableEq

namespace DescriptionError

def message : DescriptionError → String
  | emptyFieldName => "field name must not be empty"
  | emptyVariantName => "variant name must not be empty"
  | unitPayload variant => "unit variant '" ++ variant ++ "' cannot carry a payload"
  | newtypePayload variant =>
    "newtype variant '" ++ variant ++ "' needs exactly one payload shape"
  | negativeLength length => "fixed array length must be >= 0, got " ++ toString length
  | unknownKind text => (Json.str text).literal ++ " is not a valid PrimitiveKind"
  | keyNotKind value => "map key must be a PrimitiveKind, got " ++ value.literal

end DescriptionError

def PrimitiveKind.parse (text : String) : Except DescriptionError PrimitiveKind :=
  match PrimitiveKind.ofName? text with
  | some kind => .ok kind
  | none => .error (.unknownKind text)

def Field.make (name : String) (shape : Shape) (constraints : Constraints) :
    Except DescriptionError Field :=
  if h : name = "" then .error .emptyFieldName else .ok ⟨name, shape, constraints, h⟩

def Variant.make (name : String) (payload : Payload) (constraints : Constraints) :
    Except DescriptionError Variant :=
  if h : name = "" then .error .emptyVariantName else .ok ⟨name, payload, constraints, h⟩

/-- The payload of a named wrapper variant, which is exactly one shape. -/
def Payload.single (variant : String) : List Shape → Except DescriptionError Payload
  | [shape] => .ok (.newtype shape)
  | _ => .error (.newtypePayload variant)

/-- The payload of a unit variant, which is nothing. -/
def Payload.nothing (variant : String) (itemCount : Nat) : Except DescriptionError Payload :=
  if itemCount = 0 then .ok .unit else .error (.unitPayload variant)

/-- The length of a fixed array, which is not negative. -/
def Shape.lengthOf (length : Int) : Except DescriptionError Nat :=
  if length < 0 then .error (.negativeLength length) else .ok length.toNat

end ShapeSchema
