import ShapeSchema.Naming

/-!
The usual forms of names: snake case for fields and Pascal case for variants, both in ASCII letters
and digits.
-/

namespace ShapeSchema.Naming

def isSmall (c : Char) : Bool := 'a' ≤ c && c ≤ 'z'

def isCapital (c : Char) : Bool := 'A' ≤ c && c ≤ 'Z'

def isDecimal (c : Char) : Bool := '0' ≤ c && c ≤ '9'

/-- Whether the rest of a name in snake case follows, at the start of a word or inside one. -/
def isSnakeFrom : (atStart : Bool) → List Char → Bool
  | atStart, [] => !atStart
  | true, c :: rest => isSmall c && isSnakeFrom false rest
  | false, c :: rest =>
    if c = '_' then isSnakeFrom true rest
    else (isSmall c || isDecimal c) && isSnakeFrom false rest

/-- Words of small letters and digits that start with a letter, with single underscores between
them. -/
def IsSnake (name : List Char) : Prop :=
  isSnakeFrom true name

/-- Letters and digits that start with a capital letter. -/
def IsPascal (name : List Char) : Prop :=
  ∃ c rest, name = c :: rest ∧ isCapital c ∧
    rest.all fun c => isSmall c || isCapital c || isDecimal c

end ShapeSchema.Naming
