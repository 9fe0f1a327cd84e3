import ShapeSchema.Number.Binary64

/-!
The decimal text of a binary64 number: the fewest digits that read back as the same number, the
nearest of those where there are several, positional where the exponent is moderate.
-/

namespace ShapeSchema.Double

def digitCount (n : Nat) : Nat :=
  (Nat.toDigits 10 n).length

/-- The largest `k` with `10 ^ k ≤ num / den`, where `num / den` is positive and, below one, no
power of ten. -/
def floorLog10 (num den : Nat) : Int :=
  if den ≤ num then (digitCount (num / den) : Int) - 1
  else -(digitCount (den / num) : Int)

/-- The two neighbours of `num / den` among the multiples of `10 ^ power`, the nearer one first and
at equal distance the even one. -/
def neighbours (num den : Nat) (power : Int) : List Nat :=
  let (n, d) := scale 10 num den (-power)
  let below := n / d
  if roundHalfEven n d = below then [below, below + 1] else [below + 1, below]

/-- The first neighbour on the grid of `count` digits that reads back as the same number. -/
def onGrid? (significand : Nat) (exponent : Int) (count : Nat) : Option (Nat × Int) :=
  let (num, den) := scale 2 significand 1 exponent
  let power := floorLog10 num den - count + 1
  let same (digits : Nat) := ofDecimal false digits power = ofParts false significand exponent
  ((neighbours num den power).find? (fun digits => decide (same digits))).map (·, power)

/-- The exact value of `significand · 2 ^ exponent` as digits and a power of ten. -/
def exactDecimal (significand : Nat) (exponent : Int) : Nat × Int :=
  if 0 ≤ exponent then (significand * Nat.pow 2 exponent.toNat, 0)
  else (significand * Nat.pow 5 (-exponent).toNat, exponent)

/-- The shortest decimal that reads back as `significand · 2 ^ exponent`: seventeen digits always
do, and were there none the exact value would. -/
def shortest (significand : Nat) (exponent : Int) : Nat × Int :=
  ((List.range 17).findSome? (fun n => onGrid? significand exponent (n + 1))).getD
    (exactDecimal significand exponent)

def trimZeros (digits : List Char) : List Char :=
  (digits.reverse.dropWhile (· == '0')).reverse

/-- Decimal exponents that are written positionally run from `-4` to `15`; outside them one digit
stands before the point and the exponent has a sign and at least two digits. -/
def layout (digits : List Char) (point : Int) : List Char :=
  if -4 ≤ point ∧ point < 0 then
    "0.".toList ++ List.replicate (-point - 1).toNat '0' ++ digits
  else if 0 ≤ point ∧ point < 16 then
    let whole := point.toNat + 1
    let fraction := digits.drop whole
    digits.take whole ++ List.replicate (whole - digits.length) '0' ++ ['.'] ++
      (if fraction.isEmpty then ['0'] else fraction)
  else
    let magnitude := Nat.toDigits 10 point.natAbs
    digits.take 1 ++
      (if 1 < digits.length then '.' :: digits.drop 1 else []) ++
      ['e', if point < 0 then '-' else '+'] ++
      (if magnitude.length < 2 then '0' :: magnitude else magnitude)

def magnitudeText (significand : Nat) (exponent : Int) : List Char :=
  if significand = 0 then "0.0".toList
  else
    let (digits, power) := shortest significand exponent
    let written := Nat.toDigits 10 digits
    layout (trimZeros written) (power + written.length - 1)

def text (infinity notANumber : String) : Double → String
  | finite negative significand exponent _ =>
    String.ofList ((if negative then ['-'] else []) ++ magnitudeText significand exponent)
  | infinite negative => (if negative then "-" else "") ++ infinity
  | nan => notANumber

end ShapeSchema.Double
