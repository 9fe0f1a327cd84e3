import ShapeSchema.Number
import ShapeSchema.Unicode.Blank
import ShapeSchema.Unicode.Decimal
import ShapeSchema.Yaml.Tag

/-!
The numbers of numerals: whole ones in several bases, numbers with a point, and sums of sixties with
colons between them. Low lines do not count, digits of all scripts do, and white space may stand
around every part.
-/

namespace ShapeSchema.Yaml.Numeral

/-- The value of a digit: letters count from ten. -/
def digit? (c : Char) : Option Nat :=
  (Json.hexValue? c).or (Unicode.decimalValue? c)

/-- The value of digits in a base; at least one is needed. -/
def digits? (base : Nat) (cs : List Char) : Option Nat :=
  if cs.isEmpty then none
  else cs.foldlM (fun n c => do
    let d ← digit? c
    if d < base then some (n * base + d) else none) 0

def dropBase (base : Nat) : List Char → List Char
  | zero :: letter :: rest =>
    let named := (base == 2 && letter.toLower == 'b') || (base == 8 && letter.toLower == 'o') ||
      (base == 16 && letter.toLower == 'x')
    if digit? zero == some 0 && named then rest else zero :: letter :: rest
  | cs => cs

def whole? (base : Nat) (cs : List Char) : Option Int :=
  let (negative, cs) := Tag.splitSign (Unicode.trimSpace cs)
  (digits? base (dropBase base cs)).map fun n => if negative then -(n : Int) else n

/-- The whole number of a text: a sign, then a base or sixties, each of them with a sign of its
own. -/
def int? (text : String) : Option Int :=
  let (negative, cs) := Tag.splitSign (text.toList.filter (· != '_'))
  let magnitude? : Option Int := match cs with
    | ['0'] => some 0
    | '0' :: 'b' :: rest => whole? 2 rest
    | '0' :: 'x' :: rest => whole? 16 rest
    | '0' :: _ => whole? 8 cs
    | cs => (cs.splitOn ':').foldlM (fun n part => (whole? 10 part).map (n * 60 + ·)) 0
  magnitude?.map fun n => if negative then -n else n

def infinityWords : List String := ["inf", "infinity"]

/-- The exponent at the end of a numeral, zero if there is none. -/
def exponent? : List Char → Option Int
  | [] => some 0
  | mark :: rest =>
    if mark == 'e' then
      let (negative, digits) := Tag.splitSign rest
      (digits? 10 digits).map fun n => if negative then -(n : Int) else n
    else none

/-- The double of a numeral in lower case with a sign: digits on at least one side of the point, and
an exponent; or a word. -/
def decimal? (cs : List Char) : Option Double := do
  let (negative, cs) := Tag.splitSign (Unicode.trimSpace cs)
  if infinityWords.contains (String.ofList cs) then return .infinite negative
  if cs = ['n', 'a', 'n'] then return .nan
  let isDigit (c : Char) : Bool := (Unicode.decimalValue? c).isSome
  let before := cs.takeWhile isDigit
  let rest := cs.drop before.length
  let (after, rest) := match rest with
    | '.' :: rest => (rest.takeWhile isDigit, rest.dropWhile isDigit)
    | rest => ([], rest)
  let digits ← digits? 10 (before ++ after)
  return .ofDecimal negative digits ((← exponent? rest) - after.length)

/-- The sum of numbers where each counts sixty times the one before it, rounded at every step; the
last number comes first. None if sixty to a power is past the range. -/
def sumSixties (total : Double) (power : Nat) : List Double → Option Double
  | [] => some total
  | part :: parts =>
    match Double.ofNat (Nat.pow 60 power) with
    | .infinite _ => none
    | unit => sumSixties (total.add (part.mul unit)) (power + 1) parts

/-- The double of a text: a sign, then a word, or a numeral or sixties, each of them with a sign of
its own. -/
def double? (text : String) : Option Double := do
  let (negative, cs) := Tag.splitSign ((text.toList.filter (· != '_')).map Char.toLower)
  if cs = ".inf".toList then return .infinite negative
  if cs = ".nan".toList then return .nan
  let magnitude ← match cs.splitOn ':' with
    | [cs] => decimal? cs
    | parts => do sumSixties (.zero false) 0 (← parts.mapM decimal?).reverse
  return if negative then magnitude.neg else magnitude

end ShapeSchema.Yaml.Numeral
