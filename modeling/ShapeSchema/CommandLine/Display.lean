import ShapeSchema.Unicode.Blank
import ShapeSchema.Unicode.Case
import ShapeSchema.Unicode.Columns
import ShapeSchema.Unicode.Picture

/-!
How a text is shown on a console. Words in brackets that look like tags stand for themselves, and
elsewhere a backslash before a bracket is not shown. A picture may be written as its name between
colons. Controls that move the cursor are dropped, a tab leads to the next tab stop, and blanks
beyond the end of a line are cut off.
-/

namespace ShapeSchema.CommandLine.Display

def tabSize : Nat := 8

def lineLength : Nat := 80

def isTagStart (c : Char) : Bool :=
  ('a' ≤ c && c ≤ 'z') || c == '#' || c == '/' || c == '@'

/-- The tag that stands behind an opening bracket, and what follows its closing one. -/
def splitTag? : List Char → Option (List Char × List Char)
  | c :: rest =>
    match rest.dropWhile (· != ']') with
    | _ :: after => if isTagStart c then some (c :: rest.takeWhile (· != ']'), after) else none
    | [] => none
  | [] => none

/-- The pieces of a text, given the characters of the current one and what stands behind each
further opening bracket. A tag is a piece of its own, and so are the backslashes in front of it. -/
def pieces (current : List Char) : List (List Char) → List (List Char)
  | [] => [current]
  | behind :: rest =>
    match splitTag? behind with
    | some (tag, after) =>
      let slashes := current.reverse.takeWhile (· == '\\')
      current.take (current.length - slashes.length) :: slashes :: ('[' :: tag ++ [']']) ::
        pieces after rest
    | none => pieces (current ++ '[' :: behind) rest

/-- A piece without the backslashes before opening brackets. -/
def withoutEscapes : List Char → List Char
  | '\\' :: '[' :: rest => '[' :: withoutEscapes rest
  | c :: rest => c :: withoutEscapes rest
  | [] => []

/-- The name of a picture and the mark for its form, which its code may end in. -/
def splitForm (code : String) : String × List Char :=
  match Unicode.withoutEnd? "-emoji" code, Unicode.withoutEnd? "-text" code with
  | some name, _ => (name, [Unicode.pictureForm])
  | none, some name => (name, [Unicode.textForm])
  | none, none => (code, [])

/-- What is shown for a code between colons. A code that names no picture stands for itself. -/
def codeText (code : List Char) : List Char :=
  let (name, form) := splitForm (String.ofList code)
  match Unicode.picture? (String.ofList (Unicode.lowerText name.toList)) with
  | some picture => picture ++ form
  | none => ':' :: code ++ [':']

/-- A text with pictures in place of their codes, given the parts between its colons. A code has no
blanks, and a colon belongs to one code only. -/
def withPictures : List (List Char) → List Char
  | text :: code :: next :: rest =>
    if code.any Unicode.isBlank then text ++ ':' :: withPictures (code :: next :: rest)
    else text ++ codeText code ++ withPictures (next :: rest)
  | [text, last] => text ++ ':' :: last
  | [text] => text
  | [] => []

/-- Whether a character moves the cursor back or rings the bell. -/
def isDropped (c : Char) : Bool :=
  c == '\x07' || c == '\x08' || c == '\x0b' || c == '\x0c' || c == '\r'

def pieceText (piece : List Char) : List Char :=
  (withPictures ((withoutEscapes piece).splitOn ':')).filter fun c => !isDropped c

/-- A line with blanks in place of tabs, from a column on. A tab takes at least one column. -/
def withoutTabs (column : Nat) : List Char → List Char
  | [] => []
  | '\t' :: rest =>
    let stop := (column / tabSize + 1) * tabSize
    List.replicate (stop - column) ' ' ++ withoutTabs stop rest
  | c :: rest => c :: withoutTabs (column + Unicode.columns c) rest

/-- A line without the blanks at its end that are beyond the end of a line of the console. -/
def withoutExcess (line : List Char) : List Char :=
  let blanks := (line.reverse.takeWhile Unicode.isBlank).length
  line.take (line.length - min blanks (line.length - lineLength))

/-- A text as it is shown, behind a margin of blanks. -/
def text (margin : Nat) (text : String) : String :=
  let shown := match text.toList.splitOn '[' with
    | first :: rest => (pieces first rest).flatMap pieceText
    | [] => []
  let lines := (List.replicate margin ' ' ++ shown).splitOn '\n'
  String.ofList ("\n".toList.intercalate (lines.map fun line => withoutExcess (withoutTabs 0 line)))

end ShapeSchema.CommandLine.Display
