import ShapeSchema.Error

/-!
Differences between documents. The order of keys does not matter; the order of items does, except
under keys that are named as unordered, whose items are matched in any order.
-/

namespace ShapeSchema

inductive Mismatch where
  | onlyLeft
  | onlyRight
  | lengths (left right : Nat)
  | values (left right : Json)
  /-- Two sequences that differ also as collections without order. -/
  | unordered (left right : Json)
deriving DecidableEq

structure Difference where
  place : Location
  mismatch : Mismatch
deriving DecidableEq

def Difference.text (d : Difference) : String :=
  d.place.text ++ ": " ++ match d.mismatch with
    | .onlyLeft => "only in left"
    | .onlyRight => "only in right"
    | .lengths left right => "length " ++ toString left ++ " != " ++ toString right
    | .values left right => left.literal ++ " != " ++ right.literal
    | .unordered left right => left.literal ++ " != " ++ right.literal ++ " (ignoring order)"

namespace Difference

/-- Whether two values that are not both objects or both sequences are equal: a boolean equals only
a boolean, numbers are equal by value, and a container equals nothing here. -/
def scalarsEqual : Json → Json → Bool
  | .null, .null => true
  | .bool x, .bool y => x == y
  | .num x, .num y => x.same y
  | .str x, .str y => x == y
  | _, _ => false

/-- Whether as many differences have been found as were asked for. -/
def enough (limit : Option Int) (found : List Difference) : Bool :=
  match limit with
  | none => false
  | some n => n ≤ found.length

/-- The keys of `left` that `right` lacks, as differences. -/
def missing (mismatch : Mismatch) (left right : Document) (place : Location) : List Difference :=
  (left.filter fun member => !right.has member.1).map fun member =>
    ⟨place.push (.member member.1), mismatch⟩

/-- The items without the first one that passes a test, if one does. -/
def removeFirst (test : Json → Bool) : List Json → Option (List Json)
  | [] => none
  | item :: rest => if test item then some rest else (removeFirst test rest).map (item :: ·)

mutual
/-- Adds the differences of two values at a place to those found before, where `loose` says that the
order of items does not matter here. The limit is not looked at where order does not matter. -/
def compare (unordered : List String) (limit : Option Int) (loose : Bool) (a b : Json)
    (place : Location) (found : List Difference) : List Difference :=
  match a, b with
  | .obj left, .obj right =>
    if enough limit found then found
    else
      compareMembers unordered limit left right place
        (found ++ missing .onlyLeft left right place ++ missing .onlyRight right left place)
  | .arr left, .arr right =>
    if loose then
      if left.length = right.length ∧ matchItems unordered left right then found
      else found ++ [⟨place, .unordered (.arr left) (.arr right)⟩]
    else if enough limit found then found
    else if left.length = right.length then
      compareItems unordered limit left right place 0 found
    else found ++ [⟨place, .lengths left.length right.length⟩]
  | a, b =>
    if enough limit found || scalarsEqual a b then found else found ++ [⟨place, .values a b⟩]
termination_by structural a

def compareMembers (unordered : List String) (limit : Option Int) (left right : Document)
    (place : Location) (found : List Difference) : List Difference :=
  match left with
  | [] => found
  | (key, a) :: left =>
    compareMembers unordered limit left right place <|
      match right.get? key with
      | some b =>
        compare unordered limit (unordered.contains key) a b (place.push (.member key)) found
      | none => found
termination_by structural left

def compareItems (unordered : List String) (limit : Option Int) (left right : List Json)
    (place : Location) (position : Nat) (found : List Difference) : List Difference :=
  match left, right with
  | a :: left, b :: right =>
    compareItems unordered limit left right place (position + 1)
      (compare unordered limit false a b (place.push (.index position)) found)
  | _, _ => found
termination_by structural left

/-- Whether each item has a partner of its own that does not differ from it, the first one that is
left. -/
def matchItems (unordered : List String) (left right : List Json) : Bool :=
  match left with
  | [] => true
  | a :: left =>
    let same (b : Json) := (compare unordered (some 1) false a b (.start "$") []).isEmpty
    match removeFirst same right with
    | some right => matchItems unordered left right
    | none => false
termination_by structural left
end

end Difference

/-- Where and how two documents differ, up to a limit on the differences before each further
step. -/
def documentDiff (a b : Json) (unordered : List String) (limit : Option Int) : List Difference :=
  Difference.compare unordered limit false a b (.start "$") []

def documentsEqual (a b : Json) (unordered : List String) : Bool :=
  (documentDiff a b unordered (some 1)).isEmpty

end ShapeSchema
