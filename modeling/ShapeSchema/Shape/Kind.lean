/-!
The scalar kinds that have a schema fragment of their own.
-/

namespace ShapeSchema

inductive PrimitiveKind where
  | bool | i8 | i16 | i32 | i64 | u8 | u16 | u32 | u64 | f32 | f64
  | string | binary | uuid | datetime | url
deriving DecidableEq, Inhabited

namespace PrimitiveKind

def all : List PrimitiveKind :=
  [bool, i8, i16, i32, i64, u8, u16, u32, u64, f32, f64, string, binary, uuid, datetime, url]

def name : PrimitiveKind → String
  | bool => "bool"
  | i8 => "i8"
  | i16 => "i16"
  | i32 => "i32"
  | i64 => "i64"
  | u8 => "u8"
  | u16 => "u16"
  | u32 => "u32"
  | u64 => "u64"
  | f32 => "f32"
  | f64 => "f64"
  | string => "string"
  | binary => "binary"
  | uuid => "uuid"
  | datetime => "datetime"
  | url => "url"

def ofName? (text : String) : Option PrimitiveKind :=
  all.find? (·.name == text)

def width? : PrimitiveKind → Option Nat
  | i8 | u8 => some 8
  | i16 | u16 => some 16
  | i32 | u32 | f32 => some 32
  | i64 | u64 | f64 => some 64
  | _ => none

def isFloat : PrimitiveKind → Bool
  | f32 | f64 => true
  | _ => false

def isNumeric (kind : PrimitiveKind) : Bool :=
  kind.width?.isSome

def isInteger (kind : PrimitiveKind) : Bool :=
  kind.isNumeric && !kind.isFloat

def isSigned : PrimitiveKind → Bool
  | i8 | i16 | i32 | i64 | f32 | f64 => true
  | _ => false

/-- Whether values of the kind are plain text, so that they can be keys. -/
def isText : PrimitiveKind → Bool
  | string | uuid | url => true
  | _ => false

theorem ofName?_name (kind : PrimitiveKind) : ofName? kind.name = some kind := by
  cases kind <;> decide

end PrimitiveKind
end ShapeSchema
