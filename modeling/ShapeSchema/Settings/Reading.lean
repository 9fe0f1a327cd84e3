import ShapeSchema.Settings
import ShapeSchema.Unicode.Blank
import ShapeSchema.Yaml.Value

/-!
Reading settings from values. What is not said keeps its default, unknown keys count for nothing,
and all faults are found, in the order of the settings. What counts as a truth value or a whole
number is a parameter; leniently, a value that is not of the right type counts if it can only mean
one setting: words for truth values, numerals in texts, whole numbers with a point.
-/

namespace ShapeSchema

inductive FaultKind where
  | notMapping
  | notTruth
  | unreadableTruth
  | notWhole
  | unreadableWhole
  | fractional
  | notFinite
  | outOfSize
  | tooSmall
  | tooLarge
  | notChoice
deriving DecidableEq

def FaultKind.name : FaultKind → String
  | notMapping => "model_type"
  | notTruth => "bool_type"
  | unreadableTruth => "bool_parsing"
  | notWhole => "int_type"
  | unreadableWhole => "int_parsing"
  | fractional => "int_from_float"
  | notFinite => "finite_number"
  | outOfSize => "int_parsing_size"
  | tooSmall => "greater_than_equal"
  | tooLarge => "less_than_equal"
  | notChoice => "literal_error"

structure Fault where
  path : List String
  kind : FaultKind
deriving DecidableEq

namespace Fault

/-- The name of the setting with the names around it. -/
def location (fault : Fault) : String :=
  ".".intercalate fault.path

def inSection (name : String) (fault : Fault) : Fault :=
  { fault with path := name :: fault.path }

end Fault

/-- Settings, or all that is wrong with them. -/
abbrev Checked (α : Type) := Except (List Fault) α

/-- Two parts of the settings; the faults of both count. -/
def both {α β : Type} (first : Checked α) (second : Checked β) : Checked (α × β) :=
  match first, second with
  | .ok a, .ok b => .ok (a, b)
  | .ok _, .error faults => .error faults
  | .error faults, .ok _ => .error faults
  | .error faults, .error others => .error (faults ++ others)

open Yaml (Value)

namespace Settings

def trueWords : List String := ["1", "on", "t", "true", "y", "yes"]

def falseWords : List String := ["0", "off", "f", "false", "n", "no"]

/-- The truth value of a word, in any case. -/
def readTruthWord (text : String) : Except FaultKind Bool :=
  if trueWords.contains text.toLower then .ok true
  else if falseWords.contains text.toLower then .ok false
  else .error .unreadableTruth

/-- The bound of the whole numbers of 64 bits with a sign. -/
def wordBound : Int := 9223372036854775808

/-- The whole number of a double strictly between the bounds of a word. -/
def smallWhole? (d : Double) : Option Int :=
  match d.toRat? with
  | some q => if q.den = 1 ∧ -wordBound < q.num ∧ q.num < wordBound then some q.num else none
  | none => none

/-- The truth value of a whole number: one is true and zero is false. -/
def readTruthNumber (n : Int) : Except FaultKind Bool :=
  if n = 1 then .ok true
  else if n = 0 then .ok false
  else .error .unreadableTruth

/-- A truth value. A number that does not fit a word is not even a candidate. -/
def readTruth : Value → Except FaultKind Bool
  | .bool b => .ok b
  | .num (.int n) =>
    if -wordBound ≤ n ∧ n < wordBound then readTruthNumber n else .error .notTruth
  | .num (.double d) =>
    match smallWhole? d with
    | some n => readTruthNumber n
    | none => .error .notTruth
  | .text text => readTruthWord text
  | .bytes (some text) => readTruthWord text
  | .bytes none => .error .unreadableTruth
  | _ => .error .notTruth

def isCounting (c : Char) : Bool :=
  '1' ≤ c && c ≤ '9'

/-- A numeral after a zero or a low line: what follows goes on from the first digit that counts or
from a minus sign, a point keeps the character in front of it, and at the end the last character
is left. -/
def afterZero (last : Char) : List Char → Option (List Char)
  | [] => some [last]
  | c :: rest =>
    if c == '0' || c == '_' then afterZero c rest
    else if c == '.' then some (last :: c :: rest)
    else if c == '-' || isCounting c then some (c :: rest)
    else none

/-- A numeral without the zeros in front of it; it starts with a digit or a minus sign. -/
def dropLeadingZeros : List Char → Option (List Char)
  | [] => none
  | c :: rest =>
    if c == '0' then afterZero c rest
    else if c == '-' || isCounting c then some (c :: rest)
    else none

/-- A text without a plus sign in front, which no minus sign may follow. -/
def dropPlus : List Char → Option (List Char)
  | '+' :: '-' :: _ => none
  | '+' :: rest => some rest
  | cs => some cs

/-- The text before a point that only zeros follow. -/
def dropZeroFraction (cs : List Char) : List Char :=
  match cs.dropWhile (· != '.') with
  | _ :: zeros => if zeros.all (· == '0') then cs.takeWhile (· != '.') else cs
  | [] => cs

/-- The digits of groups that single low lines separate. -/
def dropLowLines (cs : List Char) : Option (List Char) :=
  let groups := cs.splitOn '_'
  if groups.length = 1 ∨ groups.all (!·.isEmpty) then some groups.flatten else none

/-- The value of digits without needless zeros in front. -/
def readDigits? (cs : List Char) : Option Nat :=
  if cs.isEmpty || !cs.all Json.isDigit || (cs.head? == some '0' && cs.length != 1) then none
  else some (Json.digitsValue cs)

def readWholeText? (text : String) : Option Int := do
  let numeral ← dropLeadingZeros (← dropPlus (Unicode.trimSpace text.toList))
  match ← dropLowLines (dropZeroFraction numeral) with
  | '-' :: digits => return -((← readDigits? digits) : Int)
  | digits => return (← readDigits? digits)

def readWholeText (text : String) : Except FaultKind Int :=
  match readWholeText? text with
  | some n => .ok n
  | none => .error .unreadableWhole

def readWhole : Value → Except FaultKind Int
  | .bool b => .ok (if b then 1 else 0)
  | .num (.int n) => .ok n
  | .num (.double d) =>
    match d.toRat?, smallWhole? d with
    | _, some n => .ok n
    | some q, none => .error (if q.den = 1 then .outOfSize else .fractional)
    | none, none => .error .notFinite
  | .text text => readWholeText text
  | .bytes (some text) => readWholeText text
  | .bytes none => .error .unreadableWhole
  | _ => .error .notWhole

/-- One of several choices, by its exact name. -/
def readChoice {α : Type} (choices : List α) (name : α → String) (value : Value) :
    Except FaultKind α :=
  match value with
  | .text text =>
    match choices.find? (name · = text) with
    | some choice => .ok choice
    | none => .error .notChoice
  | _ => .error .notChoice

/-- The setting under a key, its default where nothing is said. -/
def setting {α : Type} (key : String) (fallback : α) (read : Value → Except FaultKind α)
    (pairs : List (Value × Value)) : Checked α :=
  match Value.lookup? key pairs with
  | none => .ok fallback
  | some value => (read value).mapError fun kind => [⟨[key], kind⟩]

/-- The section under a key, its default where nothing is said. -/
def sectionOf {α : Type} (key : String) (fallback : α)
    (read : List (Value × Value) → Checked α) (pairs : List (Value × Value)) : Checked α :=
  match Value.lookup? key pairs with
  | none => .ok fallback
  | some (.mapping inner) => (read inner).mapError (·.map (Fault.inSection key))
  | some _ => .error [⟨[key], .notMapping⟩]

end Settings

/-- What counts as a truth value, and what as a whole number. -/
structure Coercions where
  truth : Value → Except FaultKind Bool
  whole : Value → Except FaultKind Int

namespace Coercions

open Settings (setting sectionOf readChoice)

/-- Whatever can only mean one truth value or one whole number counts as it. -/
def lenient : Coercions := ⟨Settings.readTruth, Settings.readWhole⟩

/-- The blanks of one level, from none to eight. -/
def readIndent (coercions : Coercions) (value : Value) : Except FaultKind Int := do
  let n ← coercions.whole value
  if 8 < n then throw .tooLarge
  if n < 0 then throw .tooSmall
  return n

def readDerive (coercions : Coercions) (pairs : List (Value × Value)) : Checked DeriveSettings :=
  let start := DeriveSettings.default
  (both (setting "strict_objects" start.strictObjects coercions.truth pairs)
    (both (setting "cache_enabled" start.cacheEnabled coercions.truth pairs)
      (setting "default_int_kind" start.defaultIntKind
        (readChoice IntKind.all (·.name)) pairs))).map
    fun (strict, cached, intKind) => ⟨strict, cached, intKind⟩

def readOutput (coercions : Coercions) (pairs : List (Value × Value)) : Checked OutputSettings :=
  let start := OutputSettings.default
  (both (setting "indent" start.indent coercions.readIndent pairs)
    (both (setting "wrap_validator" start.wrapValidator coercions.truth pairs)
      (both (setting "validation_level" start.validationLevel
          (readChoice ValidationLevel.all (·.name)) pairs)
        (setting "validation_action" start.validationAction
          (readChoice ValidationAction.all (·.name)) pairs)))).map
    fun (indent, wrap, level, action) => ⟨indent, wrap, level, action⟩

def readSettings (coercions : Coercions) (pairs : List (Value × Value)) : Checked Settings :=
  let start := Settings.default
  (both (sectionOf "derive" start.derive coercions.readDerive pairs)
    (both (sectionOf "output" start.output coercions.readOutput pairs)
      (setting "log_level" start.logLevel (readChoice LogLevel.all (·.name)) pairs))).map
    fun (derive, output, level) => ⟨derive, output, level⟩

end Coercions

namespace Settings

def readDerive : List (Value × Value) → Checked DeriveSettings :=
  Coercions.lenient.readDerive

def ofPairs : List (Value × Value) → Checked Settings :=
  Coercions.lenient.readSettings

end Settings
end ShapeSchema
