import ShapeSchema.Constraints.Range
import ShapeSchema.Schema.Acceptance
import ShapeSchema.Shape

/-!
The ranges of numbers that schemas name. An end of a range is a value beside a flag that leaves the
value itself out.
-/

namespace ShapeSchema

/-- Whether a number is on the right side of an end of a range. A bound that is no finite number
has no right side. -/
def Constraints.Limit.Allows (limit : Constraints.Limit) (isLower : Bool) (x : Rat) : Prop :=
  ∃ bound, limit.value.bound? = some bound ∧ Schema.within bound x isLower limit.exclusive

def Schema.InRange (schema : Document) (x : Rat) : Prop :=
  (∀ value, schema.get? "minimum" = some value →
    Constraints.Limit.Allows ⟨value, flag schema "exclusiveMinimum"⟩ true x) ∧
  ∀ value, schema.get? "maximum" = some value →
    Constraints.Limit.Allows ⟨value, flag schema "exclusiveMaximum"⟩ false x

def PrimitiveKind.storedAs : PrimitiveKind → List NumberStorage
  | .i8 | .i16 | .i32 | .u8 | .u16 | .u32 => [.int]
  | .i64 | .u64 => [.long]
  | .f32 | .f64 => [.int, .long, .double]
  | _ => []

/-- Whether constraints admit a number of a kind, where unsigned kinds start at zero unless the
constraints say where they start. -/
def PrimitiveKind.Admits (kind : PrimitiveKind) (c : Constraints) (x : Rat) : Prop :=
  c.Admits x ∧ (kind.isSigned = false → c.hasLowerBound = false → 0 ≤ x)

/-- Whether constraints leave numbers of a shape. Unsigned kinds start at zero, so that an upper
bound that stands alone has to allow it. -/
def Constraints.LeavesRoom (c : Constraints) (shape : Shape) : Prop :=
  ∀ kind, shape.unwrapped = .primitive kind → kind.isSigned = false → c.hasLowerBound = false →
    ∀ limit, c.upper? = some limit → limit.Allows false 0

end ShapeSchema
