import ShapeSchema.Json

/-!
The values that a document database stores, as far as schemas tell them apart.
-/

namespace ShapeSchema

inductive NumberStorage where
  | int | long | double
deriving DecidableEq

/-- A stored value. Numbers count by their exact values. -/
inductive Stored where
  | null
  | bool (value : Bool)
  | number (storage : NumberStorage) (value : Rat)
  | text (text : String)
  | binary (bytes : List UInt8)
  | date (milliseconds : Int)
  | objectId (id : Nat)
  | array (items : List Stored)
  | object (members : List (String × Stored))
deriving Inhabited

namespace Stored

/-- The type names of a value: those of schemas in general and those of the database. -/
def typeNames : Stored → List String
  | null => ["null"]
  | bool _ => ["boolean", "bool"]
  | number .int _ => ["number", "int"]
  | number .long _ => ["number", "long"]
  | number .double _ => ["number", "double"]
  | text _ => ["string"]
  | binary _ => ["binData"]
  | date _ => ["date"]
  | objectId _ => ["objectId"]
  | array _ => ["array"]
  | object _ => ["object"]

def isScalar (value : Stored) (scalar : Json) : Bool :=
  match value, scalar with
  | null, .null => true
  | bool x, .bool y => x == y
  | number _ x, .num y => y.toRat? == some x
  | text x, .str y => x == y
  | _, _ => false

mutual
/-- Whether no object in a value has a key twice. -/
def KeysDistinct : Stored → Prop
  | array items => KeysDistinctAll items
  | object members => (members.map Prod.fst).Nodup ∧ KeysDistinctMembers members
  | _ => True

def KeysDistinctAll : List Stored → Prop
  | [] => True
  | item :: rest => KeysDistinct item ∧ KeysDistinctAll rest

def KeysDistinctMembers : List (String × Stored) → Prop
  | [] => True
  | (_, value) :: rest => KeysDistinct value ∧ KeysDistinctMembers rest
end

end Stored
end ShapeSchema
