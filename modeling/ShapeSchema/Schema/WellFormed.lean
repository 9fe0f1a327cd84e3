import ShapeSchema.Schema.Fragment

/-!
The schemas inside a schema, and what makes a schema well formed: its keywords fit each other.
-/

namespace ShapeSchema.Schema

mutual
def inner : Document → List Document
  | [] => []
  | (keyword, argument) :: rest => held keyword argument ++ inner rest

/-- The schemas that a keyword holds, and those inside them. -/
def held (keyword : String) : Json → List Document
  | .obj members =>
    if keyword = "properties" then heldByMembers members
    else if keyword = "items" ∨ keyword = "additionalProperties" then members :: inner members
    else []
  | .arr items => if keyword = "anyOf" ∨ keyword = "items" then heldByItems items else []
  | _ => []

def heldByMembers : List (String × Json) → List Document
  | [] => []
  | (_, .obj schema) :: rest => schema :: (inner schema ++ heldByMembers rest)
  | _ :: rest => heldByMembers rest

def heldByItems : List Json → List Document
  | [] => []
  | .obj schema :: rest => schema :: (inner schema ++ heldByItems rest)
  | _ :: rest => heldByItems rest
end

/-- A schema and all schemas inside it. -/
def subschemas (schema : Document) : List Document :=
  schema :: inner schema

theorem mem_subschemas_self (schema : Document) : schema ∈ subschemas schema :=
  List.mem_cons_self

/-- Whether a type specification is one name, or one name and null. -/
def IsTypeSpec (spec : Json) : Prop :=
  (∃ name, spec = .str name) ∨
    ∃ name, name ≠ "null" ∧ spec = .arr [.str name, .str "null"]

/-- Whether the keywords of a schema fit each other, those of the schemas inside it aside. -/
structure IsRegular (schema : Document) : Prop where
  /-- At most one keyword says what kind of value is meant. -/
  kindUnique : (["type", "bsonType", "anyOf"].filter (schema.has ·)).length ≤ 1
  typeSpec : ∀ keyword ∈ ["type", "bsonType"], ∀ spec,
    schema.get? keyword = some spec → IsTypeSpec spec
  alternatives : ∀ argument, schema.get? "anyOf" = some argument →
    ∃ schemas, argument = .arr schemas ∧ schemas ≠ [] ∧ schemas.count nullOnly ≤ 1
  /-- Only properties are required, each of them once. -/
  required : ∀ argument, schema.get? "required" = some argument →
    ∃ keys properties, argument = .arr (keys.map .str) ∧
      schema.get? "properties" = some (.obj properties) ∧ keys ≠ [] ∧ keys.Nodup ∧
        ∀ key ∈ keys, Document.has key properties
  /-- A sequence with a schema for each position has exactly these positions. -/
  positions : ∀ schemas, schema.get? "items" = some (.arr schemas) →
    schema.get? "minItems" = some (count schemas.length) ∧
      schema.get? "maxItems" = some (count schemas.length) ∧
        schema.get? "additionalItems" = some (.bool false)
  /-- The least count is not above the greatest. -/
  counts : ∀ least greatest, schema.get? "minItems" = some least →
    schema.get? "maxItems" = some greatest →
      ∃ m n : Nat, least = count m ∧ greatest = count n ∧ m ≤ n
  lowerFlag : schema.has "exclusiveMinimum" → schema.has "minimum"
  upperFlag : schema.has "exclusiveMaximum" → schema.has "maximum"

def IsWellFormed (schema : Document) : Prop :=
  ∀ part ∈ subschemas schema, IsRegular part

end ShapeSchema.Schema
