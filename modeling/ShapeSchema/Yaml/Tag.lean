import ShapeSchema.Yaml.Moment

/-!
Tags say what nodes stand for. A plain text has the tag of the first form that it fits: a truth
value, a number with a point, a whole number in several bases or in sixties, a merge, nothing, a
date, a default value; any other text is a text. A line end behind the form does not count.
-/

namespace ShapeSchema.Yaml

inductive Tag where
  | null | bool | int | float | binary | timestamp | str
  | seq | map | set | orderedMap | pairs
  /-- The key under which another mapping is taken in. -/
  | merge
  /-- The key of the value that stands for a whole mapping. -/
  | value
  /-- A tag that nothing can be read under. -/
  | other
deriving DecidableEq, Inhabited

namespace Tag

/-- What all standard tags begin with. -/
def standardStart : String := "tag:yaml.org,2002:"

def standard : List (String × Tag) := [
  ("null", null), ("bool", bool), ("int", int), ("float", float), ("binary", binary),
  ("timestamp", timestamp), ("str", str), ("seq", seq), ("map", map), ("set", set),
  ("omap", orderedMap), ("pairs", pairs), ("merge", merge), ("value", value)]

def ofName (name : String) : Tag :=
  ((standard.find? fun (ending, _) => standardStart ++ ending = name).map (·.2)).getD other

/-! ### The forms of plain texts -/

/-- Whether a word is written in lower case, in upper case, or with a capital in front. -/
def isSpellingOf (text word : String) : Bool :=
  text = word || text = word.toUpper || text = word.capitalize

def truthWords : List (String × Bool) :=
  [("yes", true), ("no", false), ("true", true), ("false", false), ("on", true), ("off", false)]

def nullWords : List String := ["~", "null", "Null", "NULL"]

def infinityWords : List String := [".inf", ".Inf", ".INF"]

def notNumberWords : List String := [".nan", ".NaN", ".NAN"]

/-- The marks that have no value of their own. -/
def marks : List String := ["!", "&", "*"]

/-- A sign in front of a numeral, and what follows it. -/
def splitSign : List Char → Bool × List Char
  | '-' :: cs => (true, cs)
  | '+' :: cs => (false, cs)
  | cs => (false, cs)

/-- Whether a text is not empty and holds nothing but digits of a base and low lines. -/
def isDigits (base : Nat) (cs : List Char) : Bool :=
  !cs.isEmpty && cs.all fun c => (Json.hexValue? c).any (· < base) || c == '_'

/-- Whether a text is a digit and then digits and low lines. -/
def isGrouped (cs : List Char) : Bool :=
  cs.head?.any Json.isDigit && isDigits 10 cs

/-- Whether a text counts sixties: one digit, or two of which the first is below six. -/
def isSixty : List Char → Bool
  | [c] => Json.isDigit c
  | [c, d] => '0' ≤ c && c ≤ '5' && Json.isDigit d
  | _ => false

/-- Whether parts between colons are a number of the largest unit and then sixties, at least one. -/
def areSixties : List (List Char) → Bool
  | first :: second :: others => isGrouped first && (second :: others).all isSixty
  | _ => false

def isWhole : List Char → Bool
  | '0' :: 'b' :: digits => isDigits 2 digits
  | '0' :: 'x' :: digits => isDigits 16 digits
  | ['0'] => true
  | '0' :: digits => isDigits 8 digits
  | cs => isGrouped cs || areSixties (cs.splitOn ':')

/-- Whether a text is empty or an exponent with its sign. -/
def isExponent : List Char → Bool
  | [] => true
  | mark :: sign :: digits =>
    (mark == 'e' || mark == 'E') && (sign == '+' || sign == '-') && !digits.isEmpty &&
      digits.all Json.isDigit
  | _ => false

/-- Whether a text without sign is a numeral with a point: digits may be missing before the point
where there is no sign, and sixties stand before a point without exponent. -/
def isPointed (signed : Bool) (cs : List Char) : Bool :=
  let whole := cs.takeWhile (· != '.')
  match cs.dropWhile (· != '.') with
  | [] => false
  | _ :: after =>
    let fraction := after.takeWhile fun c => Json.isDigit c || c == '_'
    let rest := after.drop fraction.length
    if whole.isEmpty then !signed && fraction.head?.any Json.isDigit && isExponent rest
    else (isGrouped whole && isExponent rest) || (areSixties (whole.splitOn ':') && rest.isEmpty)

/-- Whether a text is a number with a point, infinite or no number. -/
def isFloat (text : List Char) : Bool :=
  let (_, cs) := splitSign text
  infinityWords.contains (String.ofList cs) || notNumberWords.contains (String.ofList text) ||
    isPointed (cs != text) cs

/-- Whether a text is a date with two digits for month and day, or a date and a time. -/
def isMoment (cs : List Char) : Bool :=
  (Moment.read? cs).any fun moment => moment.padded || moment.time?.isSome

def dropLineEnd (cs : List Char) : List Char :=
  if cs.getLast? == some '\n' then cs.dropLast else cs

def ofPlain (text : String) : Tag :=
  let cs := dropLineEnd text.toList
  let word := String.ofList cs
  if text.isEmpty then null
  else if truthWords.any (isSpellingOf word ·.1) then bool
  else if isFloat cs then float
  else if isWhole (splitSign cs).2 then int
  else if word = "<<" then merge
  else if nullWords.contains word then null
  else if isMoment cs then timestamp
  else if word = "=" then value
  else if marks.contains word then other
  else str

end Tag
end ShapeSchema.Yaml
