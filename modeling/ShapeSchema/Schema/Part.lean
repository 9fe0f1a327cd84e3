import ShapeSchema.Error

/-!
Parts of schema documents that may have any form: looking into a value that should be an object or a
sequence, and the defects of those that cannot be looked into. A text counts as the sequence of its
characters and as the container of its parts.
-/

namespace ShapeSchema.Json

def member? (key : String) : Json → Option Json
  | obj members => Document.get? key members
  | _ => none

/-- Whether characters stand one after another in a text. -/
def isPartOf (part : List Char) : List Char → Bool
  | [] => part.isEmpty
  | c :: rest => part.isPrefixOf (c :: rest) || isPartOf part rest

/-- Whether a value holds another one: an object as a key, which containers cannot be, a sequence as
an item, and a text as a part. -/
def holds (value : Json) (sought : Json) : Except Defect Bool :=
  match value, sought with
  | obj members, str name => .ok (Document.has name members)
  | obj _, arr _ | obj _, obj _ => .error (.unhashable sought.typeName)
  | obj _, _ => .ok false
  | arr items, _ => .ok (items.contains sought)
  | str text, str part => .ok (isPartOf part.toList text.toList)
  | str _, _ => .error (.notPart sought.typeName)
  | _, _ => .error (.notContainer value.typeName)

/-- The members of a value that has to be an object. -/
def members : Json → Except Defect Document
  | obj members => .ok members
  | other => .error (.notMapping other.typeName)

/-- The items of a value: of an object its keys, of a text its characters. -/
def items : Json → Except Defect (List Json)
  | arr items => .ok items
  | obj members => .ok (members.map (str ·.1))
  | str text => .ok (text.toList.map (str ·.toString))
  | other => .error (.notSequence other.typeName)

end ShapeSchema.Json
