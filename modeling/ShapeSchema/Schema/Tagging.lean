import ShapeSchema.Schema.Part

/-!
The four conventions by which a tagged union is stored, and the schema of one variant under each of
them. A union is the `anyOf` of its variants in order.
-/

namespace ShapeSchema

inductive Tagging where
  /-- The variant is the only key of an object, its payload the value. -/
  | external
  /-- The variant stands under a tag beside the fields of its payload. -/
  | internal (tag : String)
  /-- The variant stands under one key and its payload under another. -/
  | adjacent (tag content : String)
  /-- The payload stands alone. -/
  | untagged
deriving DecidableEq, Inhabited

/-- A variant with its key and, unless it is a unit variant, the schema of its payload. The payload
is mergeable if it is an object whose properties can stand beside a tag. -/
structure EncodedVariant where
  key : String
  schema? : Option Json
  mergeable : Bool

namespace EncodedVariant

/-- The schema of the payload; without payload it is absent or an empty sequence. -/
def payload (variant : EncodedVariant) : Json :=
  variant.schema?.getD
    (.obj [("type", .arr [.str "array", .str "null"]), ("maxItems", .num (.int 0))])

end EncodedVariant

namespace Tagging

/-- Refuses empty or equal names of tag and content. -/
def check : Tagging → Except Defect Unit
  | internal tag => if tag = "" then .error .emptyTag else .ok ()
  | adjacent tag content =>
    if tag = "" ∨ content = "" then .error .emptyTagOrContent
    else if tag = content then .error (.tagEqualsContent tag)
    else .ok ()
  | external | untagged => .ok ()

def closedObject (properties : Document) : Document :=
  [("type", .str "object"), ("properties", .obj properties),
    ("required", .arr (properties.keys.map .str)), ("additionalProperties", .bool false)]

def tagSchema (key : String) : Json :=
  .obj [("enum", .arr [.str key])]

/-- What a schema lists as properties; nothing is an empty object. -/
def propertiesPart (schema : Json) : Json :=
  (schema.member? "properties").getD (.obj [])

/-- What a schema lists as required; nothing is an empty sequence. -/
def requiredPart (schema : Json) : Json :=
  (schema.member? "required").getD (.arr [])

def propertiesOf (schema : Document) : Document :=
  match propertiesPart (.obj schema) with
  | .obj properties => properties
  | _ => []

/-- A mergeable payload with the tag in front of its properties. -/
def mergeTag (tag key : String) (schema : Json) : Except Defect Document := do
  let listed := propertiesPart schema
  if ← listed.holds (.str tag) then
    throw (.tagCollision key tag)
  let properties ← listed.members
  let required ← (requiredPart schema).items
  return [("type", .str "object"), ("properties", .obj ((tag, tagSchema key) :: properties)),
      ("required", .arr (.str tag :: required))] ++
    ((schema.member? "additionalProperties").map (("additionalProperties", ·))).toList

def encode (tagging : Tagging) (variant : EncodedVariant) : Except Defect Json :=
  match tagging with
  | external => .ok (.obj (closedObject [(variant.key, variant.payload)]))
  | internal tag =>
    match variant.schema? with
    | none => .ok (.obj (closedObject [(tag, tagSchema variant.key)]))
    | some schema =>
      if variant.mergeable then .obj <$> mergeTag tag variant.key schema
      else .error (.unmergeablePayload variant.key)
  | adjacent tag content =>
    .ok (.obj (closedObject [(tag, tagSchema variant.key), (content, variant.payload)]))
  | untagged => .ok variant.payload

/-- The schema of a union: one alternative for each variant, in order. -/
def encodeUnion (tagging : Tagging) (variants : List EncodedVariant) : Except Defect Document := do
  tagging.check
  if variants.isEmpty then
    throw .noVariants
  let alternatives ← variants.mapM tagging.encode
  return [("anyOf", .arr alternatives)]

end Tagging
end ShapeSchema
