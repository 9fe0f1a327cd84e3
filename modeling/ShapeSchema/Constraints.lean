import ShapeSchema.Error
import ShapeSchema.Unicode.Blank

/-!
Refinements of a value: numeric bounds and another key. Bounds are any values until they are
checked; a checked set has at most one bound on each side, finite numbers only, and room between
them.
-/

namespace ShapeSchema

/-- Bounds of a number and the key of a field or variant. -/
structure Constraints where
  minInclusive : Option Json
  minExclusive : Option Json
  maxInclusive : Option Json
  maxExclusive : Option Json
  rename : Option String
deriving DecidableEq

namespace Constraints

def none : Constraints := ⟨.none, .none, .none, .none, .none⟩

instance : Inhabited Constraints := ⟨none⟩

/-- The bounds by name, in the order in which they are checked. -/
def bounds (c : Constraints) : List (String × Option Json) :=
  [("min_inclusive", c.minInclusive), ("min_exclusive", c.minExclusive),
    ("max_inclusive", c.maxInclusive), ("max_exclusive", c.maxExclusive)]

def hasLowerBound (c : Constraints) : Bool :=
  c.minInclusive.isSome || c.minExclusive.isSome

def hasBounds (c : Constraints) : Bool :=
  c.hasLowerBound || c.maxInclusive.isSome || c.maxExclusive.isSome

def isEmpty (c : Constraints) : Bool :=
  !c.hasBounds && c.rename.isNone

/-- Both sets together; what the second one sets wins. -/
def merge (c other : Constraints) : Constraints where
  minInclusive := other.minInclusive <|> c.minInclusive
  minExclusive := other.minExclusive <|> c.minExclusive
  maxInclusive := other.maxInclusive <|> c.maxInclusive
  maxExclusive := other.maxExclusive <|> c.maxExclusive
  rename := other.rename <|> c.rename

/-- One end of a range: its value and whether the value itself is left out. -/
structure Limit where
  value : Json
  exclusive : Bool
deriving DecidableEq

def lower? (c : Constraints) : Option Limit :=
  (c.minExclusive.map (⟨·, true⟩)) <|> (c.minInclusive.map (⟨·, false⟩))

def upper? (c : Constraints) : Option Limit :=
  (c.maxExclusive.map (⟨·, true⟩)) <|> (c.maxInclusive.map (⟨·, false⟩))

/-- Refuses a bound that is no finite number. -/
def checkBound : String × Option Json → Except Defect Unit
  | (_, .none) => .ok ()
  | (name, some (.num value)) =>
    if value.isFinite then .ok () else .error (.boundNotFinite name value)
  | (name, some value) => .error (.boundNotNumber name value.typeName)

/-- Whether no number lies between two ends. -/
def Limit.excludeAll (lower upper : Limit) : Bool :=
  match lower.value, upper.value with
  | .num low, .num high =>
    high.less low || (low.same high && (lower.exclusive || upper.exclusive))
  | _, _ => false

/-- Refuses two bounds on one side, a bound that is no finite number, a range without numbers and a
blank key, in this order. -/
def check (c : Constraints) : Except Defect Unit := do
  if c.minInclusive.isSome ∧ c.minExclusive.isSome then
    throw .twoLowerBounds
  if c.maxInclusive.isSome ∧ c.maxExclusive.isSome then
    throw .twoUpperBounds
  c.bounds.forM checkBound
  if let (some lower, some upper) := (c.lower?, c.upper?) then
    if lower.excludeAll upper then
      throw (.emptyRange lower.value upper.value)
  if let some key := c.rename then
    if key.toList.all Unicode.isBlank then
      throw .emptyRename

def Limit.keywords (limit : Limit) (bound exclusive : String) : Document :=
  (bound, limit.value) :: if limit.exclusive then [(exclusive, .bool true)] else []

def boundKeywords (c : Constraints) : Document :=
  (c.lower?.map (·.keywords "minimum" "exclusiveMinimum")).getD [] ++
    (c.upper?.map (·.keywords "maximum" "exclusiveMaximum")).getD []

end Constraints
end ShapeSchema
