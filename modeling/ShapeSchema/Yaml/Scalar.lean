import ShapeSchema.Yaml.Cursor
import ShapeSchema.Yaml.Numeral

/-!
The values of scalars: what a text stands for under a tag. A text that does not have the form that
its tag asks for stands for nothing.
-/

namespace ShapeSchema.Yaml

inductive Scalar where
  | null
  | bool (value : Bool)
  | num (value : Number)
  | text (value : String)
  /-- Bytes, as the text they encode if they encode one. -/
  | bytes (text? : Option String)
  /-- A date, or a date and a time. -/
  | moment
deriving DecidableEq

namespace Scalar

/-- The value of a character in the base-64 alphabet. -/
def sextet? (c : Char) : Option Nat :=
  if 'A' ≤ c ∧ c ≤ 'Z' then some (c.toNat - 'A'.toNat)
  else if 'a' ≤ c ∧ c ≤ 'z' then some (c.toNat - 'a'.toNat + 26)
  else if '0' ≤ c ∧ c ≤ '9' then some (c.toNat - '0'.toNat + 52)
  else if c = '+' then some 62
  else if c = '/' then some 63
  else none

/-- The bytes of a base-64 text, read from a group of which `held` bits of `count` characters and
`pads` padding marks are read. Characters outside the alphabet are passed over, and padding that
fills a group ends the text. -/
def base64Bytes (count held pads : Nat) : List Char → Option (List UInt8)
  | [] => if count = 0 then some [] else none
  | c :: rest =>
    if c = '=' then
      if 2 ≤ count ∧ 4 ≤ count + pads + 1 then some []
      else base64Bytes count held (if 2 ≤ count then pads + 1 else pads) rest
    else
      match sextet? c with
      | none => base64Bytes count held pads rest
      | some value =>
        match count with
        | 0 => base64Bytes 1 value 0 rest
        | 1 => (base64Bytes 2 (value % 16) 0 rest).map ((held * 4 + value / 16).toUInt8 :: ·)
        | 2 => (base64Bytes 3 (value % 4) 0 rest).map ((held * 16 + value / 4).toUInt8 :: ·)
        | _ => (base64Bytes 0 0 0 rest).map ((held * 64 + value).toUInt8 :: ·)

/-- The bytes of a base-64 text of ASCII characters. -/
def binary (text : String) : Except Failure Scalar :=
  match base64Bytes 0 0 0 text.toList with
  | some content =>
    if text.toList.all (·.toNat < 0x80) then .ok (.bytes (String.fromUTF8? ⟨content.toArray⟩))
    else .error .malformed
  | none => .error .malformed

/-- A value that a text has to stand for. -/
def required {α : Type} (make : α → Scalar) : Option α → Except Failure Scalar
  | some value => .ok (make value)
  | none => .error .outOfRange

/-- What a text stands for under a tag. Tags of collections and unknown ones do not go with a
text. -/
def ofText (tag : Tag) (text : String) : Except Failure Scalar :=
  match tag with
  | .null => .ok null
  | .str => .ok (.text text)
  | .bool => required bool (Tag.truthWords.lookup text.toLower)
  | .int => required (fun n => num (.int n)) (Numeral.int? text)
  | .float => required (fun d => num (.double d)) (Numeral.double? text)
  | .timestamp =>
    required (fun _ => moment)
      ((Moment.read? (Tag.dropLineEnd text.toList)).filter (·.exists?))
  | .binary => binary text
  | _ => .error .malformed

end Scalar
end ShapeSchema.Yaml
