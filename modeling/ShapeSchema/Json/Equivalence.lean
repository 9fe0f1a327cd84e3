import ShapeSchema.Json

/-!
When two documents say the same: the order of keys does not matter, numbers count by their values,
and the items of a sequence under certain keys may stand in any order.
-/

namespace ShapeSchema.Json

mutual
/-- Whether all numbers are finite and no object has a key twice. -/
def IsProper : Json → Prop
  | num value => value.isFinite
  | arr items => AreProper items
  | obj members => (members.map Prod.fst).Nodup ∧ MembersProper members
  | null | bool _ | str _ => True

def AreProper : List Json → Prop
  | [] => True
  | item :: rest => IsProper item ∧ AreProper rest

def MembersProper : List (String × Json) → Prop
  | [] => True
  | (_, value) :: rest => IsProper value ∧ MembersProper rest
end

mutual
/-- Whether two values say the same, where `loose` says that the order of items does not matter
here. -/
def Equivalent (unordered : List String) (loose : Bool) : Json → Json → Prop
  | obj left, other => ∃ right, other = obj right ∧
      (∀ key, Document.has key left = Document.has key right) ∧
        MembersEquivalent unordered left right
  | arr left, other => ∃ right, other = arr right ∧
      ∃ arranged : List Json, (if loose then arranged.Perm right else arranged = right) ∧
        ItemsEquivalent unordered left arranged
  | num value, other => ∃ number, other = num number ∧ value.same number
  | value, other => other = value

/-- Whether the members of an object say the same as those with their keys in another one. -/
def MembersEquivalent (unordered : List String) : List (String × Json) → Document → Prop
  | [], _ => True
  | (key, value) :: rest, right =>
    (∃ other, right.get? key = some other ∧
      Equivalent unordered (unordered.contains key) value other) ∧
      MembersEquivalent unordered rest right

/-- Whether two sequences say the same position by position. -/
def ItemsEquivalent (unordered : List String) : List Json → List Json → Prop
  | [], others => others = []
  | item :: rest, others => ∃ other more, others = other :: more ∧
      Equivalent unordered false item other ∧ ItemsEquivalent unordered rest more
end

/-- Whether a value comes from another one by naming the keys of objects in another order, at any
depth. -/
inductive Rekeyed : Json → Json → Prop where
  | refl (value : Json) : Rekeyed value value
  | keys {members reordered : List (String × Json)} (hperm : members.Perm reordered) :
      Rekeyed (obj members) (obj reordered)
  | member (before : List (String × Json)) (key : String) {value other : Json}
      (after : List (String × Json)) (hvalue : Rekeyed value other) :
      Rekeyed (obj (before ++ (key, value) :: after)) (obj (before ++ (key, other) :: after))
  | item (before : List Json) {item other : Json} (after : List Json) (hitem : Rekeyed item other) :
      Rekeyed (arr (before ++ item :: after)) (arr (before ++ other :: after))
  | trans {first second third : Json} (hfirst : Rekeyed first second)
      (hsecond : Rekeyed second third) : Rekeyed first third

end ShapeSchema.Json
