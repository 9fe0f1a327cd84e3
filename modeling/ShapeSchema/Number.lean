import ShapeSchema.Number.Decimal

/-!
Numbers of documents: whole numbers of any size and binary64 numbers, which stay apart in text and
are compared by their exact values.
-/

namespace ShapeSchema

inductive Number where
  | int (value : Int)
  | double (value : Double)
deriving DecidableEq

namespace Number

instance : Inhabited Number := ⟨int 0⟩

/-- The exact value, if the number has one. -/
def toRat? : Number → Option Rat
  | int value => some value
  | double value => value.toRat?

def isFinite : Number → Bool
  | int _ => true
  | double value => value.isFinite

/-- The place of a number on the extended line: below all finite ones, a value, or above. The value
that is no number has none. -/
inductive Place where
  | below
  | at (value : Rat)
  | above
deriving DecidableEq

def place? : Number → Option Place
  | int value => some (.at value)
  | double (.infinite negative) => some (if negative then .below else .above)
  | double .nan => none
  | double value => value.toRat?.map .at

/-- Equality by exact value; `1` and `1.0` are the same, and no number equals the value that is no
number. -/
def same (a b : Number) : Bool :=
  match a.place?, b.place? with
  | some p, some q => p == q
  | _, _ => false

/-- Strict order by exact value, for finite numbers. -/
def less (a b : Number) : Bool :=
  match a.toRat?, b.toRat? with
  | some p, some q => p < q
  | _, _ => false

/-- The text of a number, with the given words for infinity and for no number. A whole number is
written out however many digits it has: the length of a numeral has no limit here. -/
def text (infinity notANumber : String) : Number → String
  | int value => toString value
  | double value => value.text infinity notANumber

end Number
end ShapeSchema
