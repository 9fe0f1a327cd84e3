import ShapeSchema.Yaml.ScalarText
import ShapeSchema.Yaml.Token

/-!
The names, tags and directives of a YAML text.
-/

namespace ShapeSchema.Yaml

def isNameChar (c : Char) : Bool :=
  c.isAlphanum || c == '-' || c == '_'

def isTagChar (c : Char) : Bool :=
  isNameChar c || "-;/?:@&=+$,_.!~*'()[]%".toList.contains c

/-- The name of an anchor or of a reference to one, after its mark. -/
def readName (cursor : Cursor) : Except Failure (String × Cursor) :=
  let (name, after) := cursor.next.span isNameChar
  let ends := match after.peek 0 with
    | some c => endsIndicator (some c) || "?:,]\x7d%@\x60".toList.contains c
    | none => true
  if name.isEmpty || !ends then .error .malformed else .ok (String.ofList name, after)

/-- The bytes that are written as a percent sign and two digits. -/
def readPercentBytes : List Char → Except Failure (List UInt8)
  | '%' :: a :: b :: rest =>
    match hexNumber? [a, b] with
    | some byte => return byte.toUInt8 :: (← readPercentBytes rest)
    | none => .error .malformed
  | '%' :: _ => .error .malformed
  | _ => .ok []

/-- The text of a tag, where bytes may be written in digits. -/
def tagText : Nat → List Char → Except Failure (List Char)
  | 0, _ => .ok []
  | fuel + 1, cs =>
    match cs with
    | [] => .ok []
    | '%' :: _ => do
      let bytes ← readPercentBytes cs
      match String.fromUTF8? ⟨bytes.toArray⟩ with
      | some text => return text.toList ++ (← tagText fuel (cs.drop (3 * bytes.length)))
      | none => throw .malformed
    | c :: rest => return c :: (← tagText fuel rest)

/-- The part of a tag after its handle. -/
def readTagSuffix (cursor : Cursor) : Except Failure (String × Cursor) := do
  let (written, after) := cursor.span isTagChar
  if written.isEmpty then throw .malformed
  let text ← tagText written.length written
  return (String.ofList text, after)

/-- The handle of a tag: a name between exclamation marks. -/
def readHandle (cursor : Cursor) : Except Failure (String × Cursor) :=
  if cursor.peek 0 != some '!' then .error .malformed
  else
    let (name, after) := cursor.next.span isNameChar
    if after.peek 0 == some '!' then
      .ok (String.ofList ('!' :: name ++ ['!']), after.next)
    else if name.isEmpty && after.peek 0 == some ' ' then .ok ("!", after)
    else .error .malformed

def readTag (cursor : Cursor) : Except Failure (Token × Cursor) := do
  let (token, after) ←
    if cursor.peek 1 == some '<' then do
      let (suffix, after) ← readTagSuffix (cursor.skip 2)
      if after.peek 0 != some '>' then throw .malformed
      pure (Token.tag none suffix, after.next)
    else if endsIndicator (cursor.peek 1) then
      pure (Token.tag none "!", cursor.next)
    else do
      let word := cursor.next.rest.takeWhile (fun c => !endsWord (some c))
      let (handle, afterHandle) ←
        if word.contains '!' then readHandle cursor else pure ("!", cursor.next)
      let (suffix, after) ← readTagSuffix afterHandle
      pure (Token.tag (some handle) suffix, after)
  if endsWord (after.peek 0) then return (token, after) else throw .malformed

def readVersionNumber (cursor : Cursor) : Except Failure (Nat × Cursor) :=
  let (digits, after) := cursor.span Json.isDigit
  if digits.isEmpty then .error .malformed else .ok (Json.digitsValue digits, after)

/-- What a directive says, after its name. -/
def readDirectiveContent (name : String) (cursor : Cursor) :
    Except Failure (Directive × Cursor) := do
  if name = "YAML" then
    let (major, after) ← readVersionNumber (cursor.skipWhile (· == ' '))
    if after.peek 0 != some '.' then throw .malformed
    let (minor, after) ← readVersionNumber after.next
    if !endsWord (after.peek 0) then throw .malformed
    return (.version major minor, after)
  else if name = "TAG" then
    let (handle, after) ← readHandle (cursor.skipWhile (· == ' '))
    if after.peek 0 != some ' ' then throw .malformed
    let (expansion, after) ← readTagSuffix (after.skipWhile (· == ' '))
    if !endsWord (after.peek 0) then throw .malformed
    return (.handle handle expansion, after)
  else
    return (.other, cursor.skipWhile (!isBreak ·))

/-- A directive, with the rest of its line. -/
def readDirective (cursor : Cursor) : Except Failure (Token × Cursor) := do
  let (name, after) := cursor.next.span isNameChar
  if name.isEmpty || !endsWord (after.peek 0) then throw .malformed
  let (content, after) ← readDirectiveContent (String.ofList name) after
  return (.directive content, ← after.emptyLine)

end ShapeSchema.Yaml
