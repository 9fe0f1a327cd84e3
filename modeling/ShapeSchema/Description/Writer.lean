import ShapeSchema.Shape

/-!
Describing shape graphs as JSON. Structs, tuples, enums and named wrappers are numbered in the order
in which they are first met, a node before its parts, and a node that is met again is described by
its number alone.
-/

namespace ShapeSchema.Description

/-- The nodes numbered so far, the latest first. -/
abbrev Writer := StateM (List Shape)

/-- A number as a description has it; one that JSON cannot write stands under a key of its own. -/
def describeBound : Json → Json
  | .num (.double .nan) => .obj [("$float", .str "nan")]
  | .num (.double (.infinite negative)) =>
    .obj [("$float", .str (if negative then "-inf" else "inf"))]
  | value => value

def describeConstraints (c : Constraints) : Document :=
  let bound (key : String) (value : Option Json) : Document :=
    (value.map fun v => (key, describeBound v)).toList
  bound "min_inclusive" c.minInclusive ++ bound "min_exclusive" c.minExclusive ++
    bound "max_inclusive" c.maxInclusive ++ bound "max_exclusive" c.maxExclusive ++
    (c.rename.map fun key => ("rename", Json.str key)).toList

/-- The constraints of a member, if there are any. -/
def constraintsPart (c : Constraints) : Document :=
  if c.isEmpty then [] else [("c", .obj (describeConstraints c))]

def describeRule (rule : Option RenameRule) : Json :=
  (rule.map fun r => Json.str r.spelling).getD .null

def describeTagging : Tagging → Json
  | .external => .str "external"
  | .untagged => .str "untagged"
  | .internal tag => .obj [("internal", .str tag)]
  | .adjacent tag content => .obj [("adjacent", .arr [.str tag, .str content])]

/-- Describes a node by its number if it was met before, else numbers it and describes it with the
number and `marks` as further members. -/
def numbered (marks : Shape → Document) (node : Shape) (describe : Writer Document) :
    Writer Json := do
  let seen ← get
  match seen.reverse.idxOf? node with
  | some number => return .obj [("k", .str "seen"), ("id", .num (.int number))]
  | none =>
    set (node :: seen)
    let members ← describe
    return .obj (members ++ [("id", .num (.int seen.length))] ++ marks node)

section Parts

variable (visit : Shape → Writer Json)

def describeField (field : Field) : Writer Json := do
  return .obj ([("name", .str field.name), ("shape", ← visit field.shape)] ++
    constraintsPart field.constraints)

def describePayload : Payload → Writer (String × List Json)
  | .unit => return ("unit", [])
  | .newtype shape => return ("newtype", [← visit shape])
  | .tuple elements => return ("tuple", ← elements.mapM visit)
  | .struct fields => return ("struct", ← fields.mapM (describeField visit))

def describeVariant (variant : Variant) : Writer Json := do
  let (kind, items) ← describePayload visit variant.payload
  return .obj ([("name", .str variant.name), ("kind", .str kind), ("items", .arr items)] ++
    constraintsPart variant.constraints)

def describeExtra : Extra → Writer Json
  | .unspecified => return .null
  | .allowed allowed => return .bool allowed
  | .values shape => visit shape

def describeDeclaration : Declaration → Writer Document
  | .struct type => do
    let fields ← type.fields.mapM (describeField visit)
    let extra ← describeExtra visit type.extra
    return [("k", .str "struct"), ("name", .str type.name), ("fields", .arr fields),
      ("rename_all", describeRule type.renameAll), ("extra", extra)]
  | .tuple type => do
    let items ← type.elements.mapM visit
    return [("k", .str "tuple"), ("name", (type.name.map Json.str).getD .null),
      ("items", .arr items)]
  | .enum type => do
    let variants ← type.variants.mapM (describeVariant visit)
    return [("k", .str "enum"), ("name", .str type.name), ("variants", .arr variants),
      ("tagging", describeTagging type.tagging), ("rename_all", describeRule type.renameAll)]

end Parts

def describeWrapper (kind : String) (inner : Json) (more : Document) : Json :=
  .obj ([("k", .str kind), ("of", inner)] ++ more)

/-- A shape. The third argument bounds how many declared types are described inside each other;
their number is enough. -/
def describeShape (graph : Graph) (marks : Shape → Document) : (depth : Nat) → Shape → Writer Json
  | _, .primitive kind => return .str kind.name
  | _, .document => return .str "document"
  | _, .objectId => return .str "object_id"
  | _, .unit name => return .obj [("k", .str "unit"), ("name", .str name)]
  | _, .generic _ name => return .obj [("k", .str "generic"), ("name", .str name)]
  | _, .raw value => return .obj [("k", .str "raw"), ("value", value)]
  | depth, .optional _ inner =>
    return describeWrapper "optional" (← describeShape graph marks depth inner) []
  | depth, .array _ element =>
    return describeWrapper "array" (← describeShape graph marks depth element) []
  | depth, .set _ element =>
    return describeWrapper "set" (← describeShape graph marks depth element) []
  | depth, .fixedArray _ element length =>
    return describeWrapper "fixed" (← describeShape graph marks depth element)
      [("len", .num (.int length))]
  | depth, .map _ key value =>
    return describeWrapper "map" (← describeShape graph marks depth value)
      [("key", .str key.name)]
  | depth, node@(.newtype _ name inner) =>
    numbered marks node do
      return [("k", .str "newtype"), ("name", .str name),
        ("of", ← describeShape graph marks depth inner)]
  | depth, node@(.declared index) =>
    numbered marks node do
      match depth, graph.declaration? index with
      | depth + 1, some type => describeDeclaration (describeShape graph marks depth) type
      | _, _ => return []
termination_by depth shape => (depth, shape)

/-- The description of a shape; `marks` gives further members of the numbered nodes. -/
def describe (graph : Graph) (marks : Shape → Document) (shape : Shape) : Json :=
  ((describeShape graph marks graph.declarations.size shape).run []).1

end ShapeSchema.Description
