import ShapeSchema.Schema.Tagging
import ShapeSchema.Stored

/-!
What a schema means: which stored values it accepts. A keyword speaks about values of its own kind
and lets all others pass, so that the meaning of a schema is that of all its keywords together; only
a few keywords look at another one beside them. Encodings say without schemas how a variant of a
union is stored.
-/

namespace ShapeSchema

/-- What the meaning of schemas leaves open: when a text matches a pattern, and when two items of a
sequence are the same. -/
structure Reading where
  matchesPattern : (pattern text : String) → Bool
  sameItem : Stored → Stored → Bool

namespace Schema

def hasType (value : Stored) : Json → Bool
  | .str name => name ∈ value.typeNames
  | .arr names => names.any fun
    | .str name => name ∈ value.typeNames
    | _ => false
  | _ => false

def flag (whole : Document) (name : String) : Bool :=
  whole.get? name = some (.bool true)

def within (limit x : Rat) (isLower exclusive : Bool) : Bool :=
  match isLower, exclusive with
  | true, true => limit < x
  | true, false => limit ≤ x
  | false, true => x < limit
  | false, false => x ≤ limit

/-- The bound of a range keyword, for values that are numbers. -/
def acceptsBound (value : Stored) (argument : Json) (isLower exclusive : Bool) : Bool :=
  match value, argument with
  | .number _ x, .num limit =>
    match limit.toRat? with
    | some limit => within limit x isLower exclusive
    | none => false
  | _, _ => true

/-- The bound of a count keyword, for values that are sequences. -/
def acceptsCount (value : Stored) (argument : Json) (isLower : Bool) : Bool :=
  match value, argument with
  | .array items, .num limit =>
    match limit.toRat? with
    | some limit => within limit items.length isLower false
    | none => false
  | _, _ => true

def positionCount (whole : Document) : Nat :=
  match whole.get? "items" with
  | some (.arr schemas) => schemas.length
  | _ => 0

def itemsDistinct (reading : Reading) : List Stored → Bool
  | [] => true
  | item :: rest => rest.all (!reading.sameItem item ·) && itemsDistinct reading rest

/-- The keywords that do not hold schemas. Unknown ones accept all values. -/
def acceptsPlain (reading : Reading) (whole : Document) (keyword : String) (argument : Json)
    (value : Stored) : Bool :=
  match keyword with
  | "type" | "bsonType" => hasType value argument
  | "enum" => match argument with
    | .arr scalars => scalars.any value.isScalar
    | _ => false
  | "required" => match value, argument with
    | .object members, .arr keys => keys.all fun key => members.any fun m => .str m.1 = key
    | _, _ => true
  | "minItems" => acceptsCount value argument true
  | "maxItems" => acceptsCount value argument false
  | "uniqueItems" => match value with
    | .array items => argument ≠ .bool true || itemsDistinct reading items
    | _ => true
  | "additionalItems" => match value with
    | .array items => argument ≠ .bool false || items.length ≤ positionCount whole
    | _ => true
  | "minimum" => acceptsBound value argument true (flag whole "exclusiveMinimum")
  | "maximum" => acceptsBound value argument false (flag whole "exclusiveMaximum")
  | "pattern" => match value, argument with
    | .text text, .str pattern => reading.matchesPattern pattern text
    | _, _ => true
  | _ => true

mutual
/-- Whether a value passes all keywords of a list that belongs to a whole schema. -/
def acceptsAll (reading : Reading) (whole : Document) : Document → Stored → Bool
  | [], _ => true
  | (keyword, argument) :: rest, value =>
    acceptsKeyword reading whole keyword argument value && acceptsAll reading whole rest value

def acceptsKeyword (reading : Reading) (whole : Document) (keyword : String) :
    Json → Stored → Bool
  | .obj inner, value =>
    match keyword, value with
    | "properties", .object members => members.all fun (key, v) =>
        acceptsProperty reading key inner v
    | "additionalProperties", .object members => members.all fun (key, v) =>
        (Tagging.propertiesOf whole).has key || acceptsAll reading inner inner v
    | "items", .array items => items.all fun item => acceptsAll reading inner inner item
    | _, _ => acceptsPlain reading whole keyword (.obj inner) value
  | .arr schemas, value =>
    match keyword, value with
    | "anyOf", value => acceptsSome reading schemas value
    | "items", .array items => acceptsPositions reading schemas items
    | _, _ => acceptsPlain reading whole keyword (.arr schemas) value
  | argument, value =>
    match keyword, value with
    | "additionalProperties", .object members => members.all fun (key, _) =>
        (Tagging.propertiesOf whole).has key || argument ≠ .bool false
    | _, _ => acceptsPlain reading whole keyword argument value

/-- Whether a value passes what is said about a property; the first mention of its key counts. -/
def acceptsProperty (reading : Reading) (key : String) : Document → Stored → Bool
  | [], _ => true
  | (name, .obj schema) :: rest, value =>
    if name = key then acceptsAll reading schema schema value
    else acceptsProperty reading key rest value
  | (name, _) :: rest, value => name = key || acceptsProperty reading key rest value

def acceptsSome (reading : Reading) : List Json → Stored → Bool
  | [], _ => false
  | .obj schema :: rest, value =>
    acceptsAll reading schema schema value || acceptsSome reading rest value
  | _ :: rest, value => acceptsSome reading rest value

def acceptsPositions (reading : Reading) : List Json → List Stored → Bool
  | .obj schema :: schemas, item :: items =>
    acceptsAll reading schema schema item && acceptsPositions reading schemas items
  | _ :: schemas, _ :: items => acceptsPositions reading schemas items
  | [], _ | _, [] => true
end

def accepts (reading : Reading) (schema : Document) (value : Stored) : Bool :=
  acceptsAll reading schema schema value

end Schema

namespace Tagging

/-- What a variant carries: values of which something holds, or nothing, which is stored as null or
as an empty sequence. -/
def holdsPayload (content? : Option (Stored → Prop)) (value : Stored) : Prop :=
  match content? with
  | some content => content value
  | none => value = .null ∨ value = .array []

/-- Whether a value is a variant as a convention stores it, given what holds of its payload. -/
def IsEncoding (tagging : Tagging) (key : String) (content? : Option (Stored → Prop))
    (value : Stored) : Prop :=
  match tagging with
  | external => ∃ payload, value = .object [(key, payload)] ∧ holdsPayload content? payload
  | internal tag =>
    match content? with
    | none => value = .object [(tag, .text key)]
    | some content => ∃ members, value = .object members ∧
        members.lookup tag = some (.text key) ∧ content (.object (members.filter (·.1 ≠ tag)))
  | adjacent tag place => ∃ payload members, value = .object members ∧
      members.Perm [(tag, .text key), (place, payload)] ∧ holdsPayload content? payload
  | untagged => holdsPayload content? value

end Tagging
end ShapeSchema
