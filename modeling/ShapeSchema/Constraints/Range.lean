import ShapeSchema.Constraints

/-!
What the bounds of constraints mean: the numbers that they admit.
-/

namespace ShapeSchema

/-- The number that a bound is, if it is a finite one. -/
def Json.bound? : Json → Option Rat
  | num value => value.toRat?
  | _ => none

namespace Constraints

/-- Whether a number is on the right side of every bound that is set. A bound that is no finite
number admits none. -/
def Admits (c : Constraints) (x : Rat) : Prop :=
  (∀ bound, c.minInclusive = some bound → ∃ low, bound.bound? = some low ∧ low ≤ x) ∧
  (∀ bound, c.minExclusive = some bound → ∃ low, bound.bound? = some low ∧ low < x) ∧
  (∀ bound, c.maxInclusive = some bound → ∃ high, bound.bound? = some high ∧ x ≤ high) ∧
  ∀ bound, c.maxExclusive = some bound → ∃ high, bound.bound? = some high ∧ x < high

def Satisfiable (c : Constraints) : Prop :=
  ∃ x, c.Admits x

theorem admits_none (x : Rat) : Constraints.none.Admits x := by
  simp [Admits, Constraints.none]

end Constraints
end ShapeSchema
