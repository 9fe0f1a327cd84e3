import ShapeSchema.Number

/-!
Documents as data: JSON values whose objects keep the order of their members. An object is an
association list; looking up and changing a key follow its first member.
-/

namespace ShapeSchema

/-- A JSON value; the members of an object stay in order. -/
inductive Json where
  | null
  | bool (value : Bool)
  | num (value : Number)
  | str (text : String)
  | arr (items : List Json)
  | obj (members : List (String × Json))
deriving Inhabited

namespace Json

mutual
/-- Equality of values, member order included. -/
def decEq : (a b : Json) → Decidable (a = b)
  | null, b => match b with
    | null => isTrue rfl
    | bool _ | num _ | str _ | arr _ | obj _ => isFalse nofun
  | bool x, b => match b with
    | bool y => decidable_of_iff (x = y) (by simp)
    | null | num _ | str _ | arr _ | obj _ => isFalse nofun
  | num x, b => match b with
    | num y => decidable_of_iff (x = y) (by simp)
    | null | bool _ | str _ | arr _ | obj _ => isFalse nofun
  | str x, b => match b with
    | str y => decidable_of_iff (x = y) (by simp)
    | null | bool _ | num _ | arr _ | obj _ => isFalse nofun
  | arr x, b => match b with
    | arr y =>
      have := decEqItems x y
      decidable_of_iff (x = y) (by simp)
    | null | bool _ | num _ | str _ | obj _ => isFalse nofun
  | obj x, b => match b with
    | obj y =>
      have := decEqMembers x y
      decidable_of_iff (x = y) (by simp)
    | null | bool _ | num _ | str _ | arr _ => isFalse nofun

def decEqItems : (a b : List Json) → Decidable (a = b)
  | [], [] => isTrue rfl
  | [], _ :: _ | _ :: _, [] => isFalse nofun
  | x :: xs, y :: ys =>
    have := decEq x y
    have := decEqItems xs ys
    decidable_of_iff (x = y ∧ xs = ys) (by simp)

def decEqMembers : (a b : List (String × Json)) → Decidable (a = b)
  | [], [] => isTrue rfl
  | [], _ :: _ | _ :: _, [] => isFalse nofun
  | (k, x) :: xs, (l, y) :: ys =>
    have := decEq x y
    have := decEqMembers xs ys
    decidable_of_iff (k = l ∧ x = y ∧ xs = ys) (by simp [and_assoc])
end

instance : DecidableEq Json := decEq

/-- Whether a value is no container. -/
def isScalar : Json → Bool
  | arr _ | obj _ => false
  | _ => true

instance : Coe String Json := ⟨str⟩
instance : Coe Bool Json := ⟨bool⟩
instance : Coe Int Json := ⟨fun value => num (.int value)⟩

end Json

/-- The members of an object, in order. Every schema is one. -/
abbrev Document := List (String × Json)

namespace Document

def get? (key : String) (doc : Document) : Option Json :=
  doc.lookup key

def has (key : String) (doc : Document) : Bool :=
  doc.any (·.1 == key)

/-- Sets a key: in its place if it is present, else at the end. -/
def put (key : String) (value : Json) : Document → Document
  | [] => [(key, value)]
  | (k, v) :: rest => if k = key then (k, value) :: rest else (k, v) :: put key value rest

def remove (key : String) (doc : Document) : Document :=
  doc.filter (·.1 != key)

def update (doc changes : Document) : Document :=
  changes.foldl (fun d member => d.put member.1 member.2) doc

def keys (doc : Document) : List String :=
  doc.map Prod.fst

end Document
end ShapeSchema
