import ShapeSchema.Schema.Part

/-!
The schema fragments of scalar kinds and built-in containers, and the widening of a schema to null.
-/

namespace ShapeSchema.Schema

def uuidPattern : String :=
  "^[0-9a-fA-F]\x7b8\x7d-[0-9a-fA-F]\x7b4\x7d-[0-9a-fA-F]\x7b4\x7d-[0-9a-fA-F]\x7b4\x7d" ++
    "-[0-9a-fA-F]\x7b12\x7d$"

def count (n : Nat) : Json :=
  .num (.int n)

/-- The schema of a scalar kind. Whole numbers of up to 32 bits are stored as `int` and wider ones
as `long`; unsigned ones are stored signed, with zero as their least value. -/
def primitive : PrimitiveKind → Document
  | .bool => [("type", .str "boolean")]
  | .i8 | .i16 | .i32 => [("bsonType", .str "int")]
  | .i64 => [("bsonType", .str "long")]
  | .u8 | .u16 | .u32 => [("bsonType", .str "int"), ("minimum", count 0)]
  | .u64 => [("bsonType", .str "long"), ("minimum", count 0)]
  | .f32 | .f64 => [("type", .str "number")]
  | .string | .url => [("type", .str "string")]
  | .uuid => [("type", .str "string"), ("pattern", .str uuidPattern)]
  | .binary => [("bsonType", .str "binData")]
  | .datetime => [("bsonType", .str "date")]

def array (items : Document) : Document :=
  [("type", .str "array"), ("items", .obj items)]

def set (items : Document) : Document :=
  [("type", .str "array"), ("uniqueItems", .bool true), ("items", .obj items)]

def fixedArray (items : Document) (length : Nat) : Document :=
  [("type", .str "array"), ("minItems", count length), ("maxItems", count length),
    ("items", .obj items)]

def tuple (items : List Document) : Document :=
  [("type", .str "array"), ("items", .arr (items.map .obj)), ("additionalItems", .bool false),
    ("minItems", count items.length), ("maxItems", count items.length)]

/-- Objects whose values all match one schema. The keys must be plain text, and add nothing. -/
def map (key : PrimitiveKind) (values : Json) : Except Defect Document :=
  if key.isText then .ok [("type", .str "object"), ("additionalProperties", values)]
  else .error (.mapKey key)

def anyObject : Document :=
  [("type", .str "object")]

/-- Any array, for a tuple that is being expanded. -/
def anyArray : Document :=
  [("type", .str "array")]

def objectId : Document :=
  [("bsonType", .str "objectId")]

/-- The value of a type without fields: an empty array. -/
def unit : Document :=
  [("type", .str "array"), ("maxItems", count 0)]

def nullOnly : Json :=
  .obj [("type", .str "null")]

/-- A type specification that admits null as well. -/
def withNull : Json → Except Defect Json
  | .str name => .ok (if name = "null" then .str name else .arr [.str name, .str "null"])
  | .arr names =>
    .ok (if .str "null" ∈ names then .arr names else .arr (names ++ [.str "null"]))
  | other => .error (.invalidType other)

/-- The schema that admits null as well: the list of types is widened, `bsonType` before `type`; a
union gets an alternative for null; a schema without either admits null already. -/
def widenNullable (doc : Document) : Except Defect Document :=
  match doc.get? "bsonType", doc.get? "type", doc.get? "anyOf" with
  | some spec, _, _ => (withNull spec).map (doc.put "bsonType" ·)
  | none, some spec, _ => (withNull spec).map (doc.put "type" ·)
  | none, none, some alternatives => do
    if ← alternatives.holds nullOnly then return doc
    return doc.put "anyOf" (.arr ((← alternatives.items) ++ [nullOnly]))
  | none, none, none => .ok doc

/-- The widening of any value. A value that is no object is left as it is, unless it holds a keyword
that should have a value then. -/
def widen : Json → Except Defect Json
  | .obj doc => .obj <$> widenNullable doc
  | value => do
    if (← ["bsonType", "type", "anyOf"].mapM fun key => value.holds (.str key)).any id then
      throw (.positionNotWhole value.typeName)
    return value

end ShapeSchema.Schema
