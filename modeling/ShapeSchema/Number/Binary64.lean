/-!
Binary64 numbers as exact data: a sign, a significand and a power of two, the two infinities and
the value that is no number. Rounding works on whole numbers only, so every step of it can be
followed in a proof.
-/

namespace ShapeSchema

/-- The least significand of 53 bits. -/
abbrev Double.leastNormal : Nat := 4503599627370496

/-- The significands and exponents of finite binary64 numbers: 53 bits, normalised unless the
exponent is the smallest one. -/
def Double.Canonical (significand : Nat) (exponent : Int) : Prop :=
  significand < 2 * leastNormal ∧ -1074 ≤ exponent ∧ exponent ≤ 971 ∧
    (exponent = -1074 ∨ leastNormal ≤ significand)

instance (significand : Nat) (exponent : Int) :
    Decidable (Double.Canonical significand exponent) := by
  unfold Double.Canonical; infer_instance

/-- A binary64 number; a finite one stands for `±significand · 2 ^ exponent`. -/
inductive Double where
  | finite (negative : Bool) (significand : Nat) (exponent : Int)
      (canonical : Double.Canonical significand exponent)
  | infinite (negative : Bool)
  | nan
deriving DecidableEq

namespace Double

instance : Inhabited Double := ⟨nan⟩

def zero (negative : Bool) : Double :=
  finite negative 0 (-1074) (by decide)

/-- The finite number with these parts; an exponent past the range is an infinity. -/
def ofParts (negative : Bool) (significand : Nat) (exponent : Int) : Double :=
  if h : Canonical significand exponent then finite negative significand exponent h
  else infinite negative

/-- The whole number nearest to `num / den`; a half goes to the even neighbour. -/
def roundHalfEven (num den : Nat) : Nat :=
  let floor := num / den
  let twice := 2 * (num % den)
  if twice < den then floor
  else if den < twice then floor + 1
  else floor + floor % 2

/-- `num / den` multiplied by `base ^ power`, again as a quotient. -/
def scale (base : Nat) (num den : Nat) (power : Int) : Nat × Nat :=
  (num * Nat.pow base power.toNat, den * Nat.pow base (-power).toNat)

/-- The largest `k` with `2 ^ k ≤ num / den`, for positive `num` and `den`. -/
def floorLog2 (num den : Nat) : Int :=
  let guess : Int := (num.log2 : Int) - den.log2
  let (n, d) := scale 2 num den (-guess)
  if d ≤ n then guess else guess - 1

/-- The binary64 number nearest to `±num / den`; a half goes to the even significand. -/
def ofRatio (negative : Bool) (num den : Nat) : Double :=
  if num = 0 then zero negative
  else
    let exponent := max (floorLog2 num den - 52) (-1074)
    let (n, d) := scale 2 num den (-exponent)
    let significand := roundHalfEven n d
    if significand = 2 * leastNormal then ofParts negative leastNormal (exponent + 1)
    else ofParts negative significand exponent

/-- The binary64 number nearest to `±digits · 10 ^ power`. Powers far outside the range are settled
by size alone, so that a short text never asks for a huge power of ten. -/
def ofDecimal (negative : Bool) (digits : Nat) (power : Int) : Double :=
  if digits = 0 then zero negative
  else if 400 < power then infinite negative
  else if power + (digits.log2 / 3 : Nat) + 1 < -400 then zero negative
  else
    let (num, den) := scale 10 digits 1 power
    ofRatio negative num den

/-- Whether the number is neither infinite nor the value that is no number. -/
def isFinite : Double → Bool
  | finite .. => true
  | _ => false

def toRat? : Double → Option Rat
  | finite negative significand exponent _ =>
    let (num, den) := scale 2 significand 1 exponent
    some (mkRat (if negative then -(num : Int) else num) den)
  | _ => none

def ofNat (n : Nat) : Double :=
  ofRatio false n 1

/-- The number nearest to an exact value; zero is positive. -/
def ofRat (q : Rat) : Double :=
  ofRatio (q < 0) q.num.natAbs q.den

def isNegative : Double → Bool
  | finite negative .. | infinite negative => negative
  | nan => false

def neg : Double → Double
  | finite negative significand exponent canonical =>
    finite (!negative) significand exponent canonical
  | infinite negative => infinite !negative
  | nan => nan

/-- The sum, rounded once. Opposite infinities have none. -/
def add (a b : Double) : Double :=
  match a.toRat?, b.toRat?, a, b with
  | some p, some q, _, _ =>
    if p + q = 0 then zero (a.isNegative && b.isNegative) else ofRat (p + q)
  | none, some _, a, _ => a
  | some _, none, _, b => b
  | none, none, a, b => if a = b then a else nan

/-- The product, rounded once. An infinity times zero has none. -/
def mul (a b : Double) : Double :=
  let negative := a.isNegative != b.isNegative
  match a.toRat?, b.toRat? with
  | some p, some q => if p * q = 0 then zero negative else ofRat (p * q)
  | p?, q? =>
    if a = nan || b = nan || p? = some 0 || q? = some 0 then nan else infinite negative

end Double
end ShapeSchema
