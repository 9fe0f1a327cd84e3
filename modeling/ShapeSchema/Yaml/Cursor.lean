/-!
Reading positions in a YAML text: what is left of it, and the line and the column reached. The end
of the text counts as the end of a line and of a word.
-/

namespace ShapeSchema.Yaml

/-- Why a text gives no value. -/
inductive Failure where
  /-- The text is not one YAML document, or a node does not fit its tag. -/
  | malformed
  /-- A scalar is no value of the kind that its tag asks for, or a character has no such number. -/
  | outOfRange
deriving DecidableEq

structure Cursor where
  rest : List Char
  index : Nat
  line : Nat
  column : Nat

def isBreak (c : Char) : Bool :=
  c == '\n' || c == '\x85' || c == '\u2028' || c == '\u2029'

def endsLine : Option Char → Bool
  | none => true
  | some c => isBreak c

/-- Whether a word ends here: at a space or with the line. -/
def endsWord (c? : Option Char) : Bool :=
  c? == some ' ' || endsLine c?

/-- Whether an indicator ends here: at a space, at a tab or with the line. -/
def endsIndicator (c? : Option Char) : Bool :=
  c? == some '\t' || endsWord c?

namespace Cursor

def start (text : List Char) : Cursor := ⟨text, 0, 0, 0⟩

def peek (cursor : Cursor) (k : Nat) : Option Char := cursor.rest[k]?

/-- The position after the next character. A byte order mark takes no column. -/
def next (cursor : Cursor) : Cursor :=
  match cursor.rest with
  | [] => cursor
  | c :: rest =>
    if isBreak c then ⟨rest, cursor.index + 1, cursor.line + 1, 0⟩
    else
      let column := if c == '\ufeff' then cursor.column else cursor.column + 1
      ⟨rest, cursor.index + 1, cursor.line, column⟩

def skip : Nat → Cursor → Cursor
  | 0, cursor => cursor
  | n + 1, cursor => skip n cursor.next

/-- The characters in front that satisfy a condition, and the position after them. -/
def span (p : Char → Bool) (cursor : Cursor) : List Char × Cursor :=
  let found := cursor.rest.takeWhile p
  (found, cursor.skip found.length)

def skipWhile (p : Char → Bool) (cursor : Cursor) : Cursor :=
  (cursor.span p).2

/-- The end of a line: the break as it counts in a scalar, and the position after it. -/
def lineBreak? (cursor : Cursor) : Option (Char × Cursor) :=
  match cursor.rest with
  | c :: _ =>
    if isBreak c then some (if c == '\x85' then '\n' else c, cursor.next) else none
  | [] => none

/-- Whether one of the marks between documents stands here. -/
def atSeparator (cursor : Cursor) : Bool :=
  let mark := cursor.rest.take 3
  (mark == ['-', '-', '-'] || mark == ['.', '.', '.']) && endsIndicator (cursor.peek 3)

/-- The rest of a line that holds nothing but blanks and a comment. -/
def emptyLine (cursor : Cursor) : Except Failure Cursor :=
  let cursor := cursor.skipWhile (· == ' ')
  let cursor := if cursor.peek 0 == some '#' then cursor.skipWhile (!isBreak ·) else cursor
  if endsLine (cursor.peek 0) then .ok cursor.next else .error .malformed

end Cursor
end ShapeSchema.Yaml
