import ShapeSchema.Json

/-!
Written documents: JSON text with keys in order, on one line or with one member on each line, and
with other characters than ASCII kept or escaped. Every writer takes the characters that follow
the value, so that a text is built from its end without copying.
-/

namespace ShapeSchema.Json

/-- A hexadecimal numeral of exactly `width` lower-case digits. -/
def hexDigits : (width : Nat) → Nat → List Char
  | 0, _ => []
  | width + 1, n => hexDigits width (n / 16) ++ [Nat.digitChar (n % 16)]

def unitEscape (unit : Nat) : List Char :=
  '\\' :: 'u' :: hexDigits 4 unit

/-- A character of a string literal: quotes, backslashes and control characters are escaped. -/
def escapeChar (c : Char) : List Char :=
  match c with
  | '"' => ['\\', '"']
  | '\\' => ['\\', '\\']
  | '\n' => ['\\', 'n']
  | '\r' => ['\\', 'r']
  | '\t' => ['\\', 't']
  | '\x08' => ['\\', 'b']
  | '\x0c' => ['\\', 'f']
  | c => if c.toNat < 0x20 then unitEscape c.toNat else [c]

/-- A character of an ASCII string literal: what is not printable ASCII is written in 16-bit units,
characters past the first plane as two of them. -/
def escapeAscii (c : Char) : List Char :=
  if c.toNat < 0x7f then escapeChar c
  else if c.toNat < 0x10000 then unitEscape c.toNat
  else
    let offset := c.toNat - 0x10000
    unitEscape (0xd800 + offset / 0x400) ++ unitEscape (0xdc00 + offset % 0x400)

structure Style where
  /-- The blanks of one level where every member has a line of its own; none writes one line. -/
  indent : Option Nat
  escape : Char → List Char

namespace Style

/-- One line, other characters than ASCII as they are. -/
def compact : Style := ⟨none, escapeChar⟩

def ascii : Style := ⟨none, escapeAscii⟩

/-- The style for a requested indentation: none and zero ask for one line, and a negative one
breaks lines without indenting them. -/
def ofIndent : Option Int → Style
  | none | some 0 => compact
  | some n => ⟨some n.toNat, escapeChar⟩

/-- What stands before the first member and after the last one, at a given level. -/
def lineBreak (style : Style) (level : Nat) : List Char :=
  match style.indent with
  | none => []
  | some width => '\n' :: List.replicate (width * level) ' '

def separator (style : Style) (level : Nat) : List Char :=
  match style.indent with
  | none => [',', ' ']
  | some _ => ',' :: style.lineBreak level

end Style

def writeString (style : Style) (text : String) (rest : List Char) : List Char :=
  '"' :: text.toList.flatMap style.escape ++ '"' :: rest

def writeNumber (n : Number) (rest : List Char) : List Char :=
  (n.text "Infinity" "NaN").toList ++ rest

mutual
/-- A value at a level of nesting, followed by `rest`. -/
def write (style : Style) (level : Nat) : Json → List Char → List Char
  | null, rest => 'n' :: 'u' :: 'l' :: 'l' :: rest
  | bool true, rest => 't' :: 'r' :: 'u' :: 'e' :: rest
  | bool false, rest => 'f' :: 'a' :: 'l' :: 's' :: 'e' :: rest
  | num n, rest => writeNumber n rest
  | str s, rest => writeString style s rest
  | arr [], rest => '[' :: ']' :: rest
  | arr (item :: items), rest =>
    '[' :: style.lineBreak (level + 1) ++ write style (level + 1) item
      (writeItems style (level + 1) items (style.lineBreak level ++ ']' :: rest))
  | obj [], rest => '{' :: '}' :: rest
  | obj ((key, value) :: members), rest =>
    '{' :: style.lineBreak (level + 1) ++ writeString style key
      (':' :: ' ' :: write style (level + 1) value
        (writeMembers style (level + 1) members (style.lineBreak level ++ '}' :: rest)))

/-- The items after the first one, followed by `rest`. -/
def writeItems (style : Style) (level : Nat) : List Json → List Char → List Char
  | [], rest => rest
  | item :: items, rest =>
    style.separator level ++ write style level item (writeItems style level items rest)

def writeMembers (style : Style) (level : Nat) :
    List (String × Json) → List Char → List Char
  | [], rest => rest
  | (key, value) :: members, rest =>
    style.separator level ++ writeString style key
      (':' :: ' ' :: write style level value (writeMembers style level members rest))
end

def text (style : Style) (value : Json) : String :=
  String.ofList (value.write style 0 [])

end ShapeSchema.Json
