import ShapeSchema.Json

/-!
Reading JSON text. Key order is kept; of two members with one key the later value stands at the
place of the first. A numeral with a point or an exponent is a binary64 number, any other one a
whole number. The words for infinity and for no number are read too.
-/

namespace ShapeSchema.Json

def skipBlanks (cs : List Char) : List Char :=
  cs.dropWhile (fun c => c == ' ' || c == '\t' || c == '\n' || c == '\r')

def hexValue? (c : Char) : Option Nat :=
  if '0' ≤ c ∧ c ≤ '9' then some (c.toNat - '0'.toNat)
  else if 'a' ≤ c ∧ c ≤ 'f' then some (c.toNat - 'a'.toNat + 10)
  else if 'A' ≤ c ∧ c ≤ 'F' then some (c.toNat - 'A'.toNat + 10)
  else none

/-- The 16-bit unit of four hexadecimal digits. -/
def unit? (a b c d : Char) : Option Nat := do
  return ((← hexValue? a) * 16 + (← hexValue? b)) * 256 + (← hexValue? c) * 16 + (← hexValue? d)

/-- The characters of a sequence of code points and 16-bit units: a pair of units is one character,
and half of a pair without the other is replaced. -/
def joinUnits : List Nat → List Char
  | [] => []
  | [unit] => [if 0xd800 ≤ unit ∧ unit < 0xe000 then '\ufffd' else Char.ofNat unit]
  | high :: low :: rest =>
    if 0xd800 ≤ high ∧ high < 0xdc00 ∧ 0xdc00 ≤ low ∧ low < 0xe000 then
      Char.ofNat (0x10000 + (high - 0xd800) * 0x400 + (low - 0xdc00)) :: joinUnits rest
    else
      (if 0xd800 ≤ high ∧ high < 0xe000 then '\ufffd' else Char.ofNat high) ::
        joinUnits (low :: rest)

def escaped? : Char → Option Char
  | '"' => some '"'
  | '\\' => some '\\'
  | '/' => some '/'
  | 'b' => some '\x08'
  | 'f' => some '\x0c'
  | 'n' => some '\n'
  | 'r' => some '\r'
  | 't' => some '\t'
  | _ => none

/-- The code points and units of a string literal after its opening quote, and what follows the
closing one. -/
def readUnits : List Char → Option (List Nat × List Char)
  | [] => none
  | '"' :: rest => some ([], rest)
  | '\\' :: 'u' :: a :: b :: c :: d :: rest => do
    let unit ← unit? a b c d
    let (units, tail) ← readUnits rest
    return (unit :: units, tail)
  | '\\' :: c :: rest => do
    let char ← escaped? c
    let (units, tail) ← readUnits rest
    return (char.toNat :: units, tail)
  | c :: rest =>
    if c.toNat < 0x20 ∨ c = '\\' then none
    else do
      let (units, tail) ← readUnits rest
      return (c.toNat :: units, tail)

/-- The text of a string literal after its opening quote, and what follows the closing one. -/
def readString (cs : List Char) : Option (String × List Char) :=
  (readUnits cs).map fun (units, tail) => (String.ofList (joinUnits units), tail)

def isDigit (c : Char) : Bool := '0' ≤ c && c ≤ '9'

def digitsValue (digits : List Char) : Nat :=
  digits.foldl (fun n c => n * 10 + (c.toNat - '0'.toNat)) 0

def spanDigits (cs : List Char) : List Char × List Char :=
  (cs.takeWhile isDigit, cs.dropWhile isDigit)

/-- The whole part of a numeral: a zero, or digits that do not begin with one. -/
def readWhole : List Char → Option (List Char × List Char)
  | '0' :: rest => some (['0'], rest)
  | cs =>
    match spanDigits cs with
    | ([], _) => none
    | (digits, rest) => some (digits, rest)

/-- The digits after a point; without digits the point is not part of the numeral. -/
def readFraction : List Char → List Char × List Char
  | '.' :: rest =>
    match spanDigits rest with
    | ([], _) => ([], '.' :: rest)
    | found => found
  | cs => ([], cs)

/-- The exponent of a numeral; without digits it is not part of the numeral. -/
def readExponent (cs : List Char) : Option Int × List Char :=
  match cs with
  | mark :: rest =>
    if mark = 'e' ∨ mark = 'E' then
      let (negative, after) := match rest with
        | '-' :: after => (true, after)
        | '+' :: after => (false, after)
        | after => (false, after)
      match spanDigits after with
      | ([], _) => (none, cs)
      | (digits, tail) =>
        let value : Int := digitsValue digits
        (some (if negative then -value else value), tail)
    else (none, cs)
  | [] => (none, [])

def readMagnitude (negative : Bool) (cs : List Char) : Option (Number × List Char) := do
  let (whole, afterWhole) ← readWhole cs
  let (fraction, afterFraction) := readFraction afterWhole
  let (exponent?, rest) := readExponent afterFraction
  if fraction.isEmpty ∧ exponent?.isNone then
    let value : Int := digitsValue whole
    return (.int (if negative then -value else value), rest)
  else
    let digits := digitsValue (whole ++ fraction)
    let power := exponent?.getD 0 - fraction.length
    return (.double (Double.ofDecimal negative digits power), rest)

def readNumber : List Char → Option (Number × List Char)
  | 'N' :: 'a' :: 'N' :: rest => some (.double .nan, rest)
  | 'I' :: 'n' :: 'f' :: 'i' :: 'n' :: 'i' :: 't' :: 'y' :: rest =>
    some (.double (.infinite false), rest)
  | '-' :: 'I' :: 'n' :: 'f' :: 'i' :: 'n' :: 'i' :: 't' :: 'y' :: rest =>
    some (.double (.infinite true), rest)
  | '-' :: rest => readMagnitude true rest
  | cs => readMagnitude false cs

/-- An object with these members: a repeated key keeps its first place and takes its last value. -/
def ofMembers (members : List (String × Json)) : Document :=
  members.foldl (fun doc member => doc.put member.1 member.2) []

mutual
/-- A value after blanks, and the text behind it. The first argument bounds the number of steps;
twice the length of the text is enough. -/
def readValue : Nat → List Char → Option (Json × List Char)
  | 0, _ => none
  | fuel + 1, cs =>
    match skipBlanks cs with
    | 'n' :: 'u' :: 'l' :: 'l' :: rest => some (null, rest)
    | 't' :: 'r' :: 'u' :: 'e' :: rest => some (bool true, rest)
    | 'f' :: 'a' :: 'l' :: 's' :: 'e' :: rest => some (bool false, rest)
    | '"' :: rest => (readString rest).map fun (text, tail) => (str text, tail)
    | '[' :: rest =>
      match skipBlanks rest with
      | ']' :: tail => some (arr [], tail)
      | inner => (readItems fuel inner).map fun (items, tail) => (arr items, tail)
    | '{' :: rest =>
      match skipBlanks rest with
      | '}' :: tail => some (obj [], tail)
      | inner => (readMembers fuel inner).map fun (members, tail) => (obj (ofMembers members), tail)
    | other => (readNumber other).map fun (number, tail) => (num number, tail)

def readItems : Nat → List Char → Option (List Json × List Char)
  | 0, _ => none
  | fuel + 1, cs => do
    let (item, rest) ← readValue fuel cs
    match skipBlanks rest with
    | ']' :: tail => return ([item], tail)
    | ',' :: next =>
      let (items, tail) ← readItems fuel next
      return (item :: items, tail)
    | _ => none

def readMembers : Nat → List Char → Option (List (String × Json) × List Char)
  | 0, _ => none
  | fuel + 1, cs =>
    match skipBlanks cs with
    | '"' :: rest => do
      let (key, afterKey) ← readString rest
      match skipBlanks afterKey with
      | ':' :: afterColon =>
        let (value, afterValue) ← readValue fuel afterColon
        let member := (key, value)
        match skipBlanks afterValue with
        | '}' :: tail => return ([member], tail)
        | ',' :: next =>
          let (members, tail) ← readMembers fuel next
          return (member :: members, tail)
        | _ => none
      | _ => none
    | _ => none
end

/-- The value that a text stands for: one value and blanks around it. -/
def read? (text : String) : Option Json :=
  let cs := text.toList
  match readValue (2 * cs.length + 1) cs with
  | some (value, rest) => if (skipBlanks rest).isEmpty then some value else none
  | none => none

end ShapeSchema.Json
