import ShapeSchema.Yaml.Property

/-!
Cutting a YAML text into tokens. Outside flow collections the column of a token says which
collections it opens and closes. That a scalar was a key shows only at the colon after it: the
places where a key may have started are kept, and the token in front of the key is put in later. A
token is settled when nothing can be put in before it any more; where a text cannot be cut further,
only the settled tokens can be read.
-/

namespace ShapeSchema.Yaml

/-- A place where a key may have started. -/
structure KeyPlace where
  /-- How many tokens stand in front of it. -/
  token : Nat
  /-- Whether nothing but a key can stand here. -/
  required : Bool
  index : Nat
  line : Nat
  column : Nat

structure Lexer where
  cursor : Cursor
  /-- The tokens so far, the last one first. -/
  tokens : List Token
  /-- The column of the innermost block collection, -1 outside of all. -/
  indent : Int
  /-- The columns of the block collections around it. -/
  outer : List Int
  /-- Whether a key may start here. -/
  keyAllowed : Bool
  /-- Where a key may have started, for every open flow collection from the innermost one and for
  the block outside of them. -/
  places : List (Option KeyPlace)

namespace Lexer

def start (text : List Char) : Lexer := ⟨.start text, [], -1, [], true, [none]⟩

def inFlow (lexer : Lexer) : Bool := lexer.places.length > 1

def emit (token : Token) (lexer : Lexer) : Lexer :=
  { lexer with tokens := token :: lexer.tokens }

/-- The state with a token put in at an earlier place. -/
def emitAt (place : Nat) (token : Token) (lexer : Lexer) : Lexer :=
  { lexer with tokens := lexer.tokens.insertIdx (lexer.tokens.length - place) token }

def moveTo (cursor : Cursor) (lexer : Lexer) : Lexer :=
  { lexer with cursor }

def advance (n : Nat) (lexer : Lexer) : Lexer :=
  lexer.moveTo (lexer.cursor.skip n)

def allowKey (keyAllowed : Bool) (lexer : Lexer) : Lexer :=
  { lexer with keyAllowed }

def place? (lexer : Lexer) : Option KeyPlace :=
  lexer.places.head?.join

def setPlace (place? : Option KeyPlace) (lexer : Lexer) : Lexer :=
  { lexer with places := place? :: lexer.places.tail }

/-- No key starts in the innermost collection any more. -/
def dropPlace (lexer : Lexer) : Except Failure Lexer :=
  if lexer.place?.any (·.required) then .error .malformed else .ok (lexer.setPlace none)

/-- A key may start here, if keys are allowed. -/
def savePlace (lexer : Lexer) : Except Failure Lexer :=
  if lexer.keyAllowed then do
    let cursor := lexer.cursor
    let required := !lexer.inFlow && lexer.indent == cursor.column
    return (← lexer.dropPlace).setPlace
      (some ⟨lexer.tokens.length, required, cursor.index, cursor.line, cursor.column⟩)
  else .ok lexer

/-- Whether a place has no key any more: its key would be longer than a line or than 1024
characters. -/
def isStale (lexer : Lexer) (place : KeyPlace) : Bool :=
  place.line != lexer.cursor.line || lexer.cursor.index - place.index > 1024

/-- Forgets the places that have no key any more. -/
def dropStalePlaces (lexer : Lexer) : Except Failure Lexer :=
  if lexer.places.any (·.any fun place => lexer.isStale place && place.required) then
    .error .malformed
  else .ok { lexer with places := lexer.places.map (·.filter (!lexer.isStale ·)) }

/-- Closes the block collections that stand further to the right than a column. -/
def unwind (column : Int) (lexer : Lexer) : Lexer :=
  if lexer.inFlow then lexer
  else
    let rec close (tokens : List Token) (indent : Int) : List Int → List Token × Int × List Int
      | [] => (tokens, indent, [])
      | enclosing :: outer =>
        if column < indent then close (.blockEnd :: tokens) enclosing outer
        else (tokens, indent, enclosing :: outer)
    let (tokens, indent, outer) := close lexer.tokens lexer.indent lexer.outer
    { lexer with tokens, indent, outer }

/-- Whether a token at a column opens a block collection. -/
def opensBlock (column : Nat) (lexer : Lexer) : Bool :=
  !lexer.inFlow && lexer.indent < column

def enterBlock (column : Nat) (lexer : Lexer) : Lexer :=
  { lexer with indent := column, outer := lexer.indent :: lexer.outer }

/-- Passes blanks, comments and line ends. Outside flow collections a key may start on a new
line. -/
def skipBlanks : Nat → Lexer → Lexer
  | 0, lexer => lexer
  | fuel + 1, lexer =>
    let cursor := lexer.cursor.skipWhile (· == ' ')
    let cursor := if cursor.peek 0 == some '#' then cursor.skipWhile (!isBreak ·) else cursor
    match cursor.lineBreak? with
    | none => lexer.moveTo cursor
    | some (_, after) =>
      skipBlanks fuel ((lexer.moveTo after).allowKey (lexer.keyAllowed || !lexer.inFlow))

/-- The position of the first character, after a byte order mark. -/
def skipMark (lexer : Lexer) : Lexer :=
  if lexer.cursor.index == 0 && lexer.cursor.peek 0 == some '\ufeff' then lexer.advance 1 else lexer

/-- What has no indentation: it closes all block collections. -/
def atMargin (lexer : Lexer) : Except Failure Lexer := do
  return (← (lexer.unwind (-1)).dropPlace).allowKey false

def directive (lexer : Lexer) : Except Failure Lexer := do
  let lexer ← lexer.atMargin
  let (token, cursor) ← readDirective lexer.cursor
  return (lexer.emit token).moveTo cursor

/-- A mark between documents. -/
def separator (token : Token) (lexer : Lexer) : Except Failure Lexer := do
  return ((← lexer.atMargin).emit token).advance 3

def openFlow (token : Token) (lexer : Lexer) : Except Failure Lexer := do
  let lexer := ((← lexer.savePlace).allowKey true).emit token
  return { lexer.advance 1 with places := none :: lexer.places }

def closeFlow (token : Token) (lexer : Lexer) : Except Failure Lexer := do
  let lexer := ((← lexer.dropPlace).allowKey false).emit token
  match lexer.places with
  | _ :: place? :: places => return { lexer.advance 1 with places := place? :: places }
  | _ => throw .malformed

def comma (lexer : Lexer) : Except Failure Lexer := do
  return ((← (lexer.allowKey true).dropPlace).emit .comma).advance 1

/-- The dash or question mark in front of an item or of a key, which opens a block collection where
it stands further to the right than the innermost one. -/
def blockIndicator (opening token : Token) (keyAllowed : Bool) (lexer : Lexer) :
    Except Failure Lexer := do
  if !lexer.inFlow && !lexer.keyAllowed then throw .malformed
  let column := lexer.cursor.column
  let lexer := if lexer.opensBlock column then (lexer.enterBlock column).emit opening else lexer
  return ((← (lexer.allowKey keyAllowed).dropPlace).emit token).advance 1

def colon (lexer : Lexer) : Except Failure Lexer := do
  match lexer.place? with
  | some place =>
    let lexer := (lexer.setPlace none).emitAt place.token .key
    let lexer := if lexer.opensBlock place.column then
      (lexer.enterBlock place.column).emitAt place.token .blockMappingStart else lexer
    return ((lexer.allowKey false).emit .value).advance 1
  | none => blockIndicator .blockMappingStart .value (!lexer.inFlow) lexer

/-- A token that may begin a key. -/
def maybeKey (read : Cursor → Except Failure (Token × Cursor)) (lexer : Lexer) :
    Except Failure Lexer := do
  let lexer := (← lexer.savePlace).allowKey false
  let (token, cursor) ← read lexer.cursor
  return (lexer.emit token).moveTo cursor

def named (token : String → Token) (cursor : Cursor) : Except Failure (Token × Cursor) := do
  let (name, after) ← readName cursor
  return (token name, after)

def quoted (quote : Char) (cursor : Cursor) : Except Failure (Token × Cursor) := do
  let read ← readQuoted quote cursor
  return (.scalar (String.ofList read.text) false, read.cursor)

/-- A block of lines; a key may follow it. -/
def block (folded : Bool) (lexer : Lexer) : Except Failure Lexer := do
  let lexer ← (lexer.allowKey true).dropPlace
  let read ← readBlock folded lexer.indent lexer.cursor.next
  return (lexer.emit (.scalar (String.ofList read.text) false)).moveTo read.cursor

/-- A plain scalar; a key may follow it on a new line. -/
def plain (lexer : Lexer) : Except Failure Lexer := do
  let lexer ← lexer.savePlace
  let (read, broken) := readPlain lexer.inFlow (lexer.indent + 1) lexer.cursor
  return ((lexer.allowKey broken).emit (.scalar (String.ofList read.text) true)).moveTo read.cursor

/-- Whether a plain scalar can start with a character that has another one after it. -/
def startsPlain (inFlow : Bool) (c : Char) (next : Option Char) : Bool :=
  !(endsIndicator (some c) || "-?:,[]\x7b\x7d#&*!|>'\"%@\x60".toList.contains c) ||
    (!endsIndicator next && (c == '-' || (!inFlow && (c == '?' || c == ':'))))

/-- The next token, where one starts with the character `c`. -/
def token (c : Char) (lexer : Lexer) : Except Failure Lexer :=
  let next := lexer.cursor.peek 1
  let isIndicator := endsIndicator next
  let atMargin := lexer.cursor.column == 0
  let atSeparator := atMargin && lexer.cursor.atSeparator
  match c with
  | '%' => if atMargin then lexer.directive else .error .malformed
  | '[' => lexer.openFlow .listOpen
  | '{' => lexer.openFlow .mappingOpen
  | ']' => lexer.closeFlow .listClose
  | '}' => lexer.closeFlow .mappingClose
  | ',' => lexer.comma
  | '*' => lexer.maybeKey (named .reference)
  | '&' => lexer.maybeKey (named .anchor)
  | '!' => lexer.maybeKey readTag
  | '\x27' | '"' => lexer.maybeKey (quoted c)
  | c =>
    if c == '-' && atSeparator then lexer.separator .documentStart
    else if c == '.' && atSeparator then lexer.separator .documentEnd
    else if c == '-' && isIndicator then lexer.blockIndicator .blockListStart .item true
    else if c == '?' && (lexer.inFlow || isIndicator) then
      lexer.blockIndicator .blockMappingStart .key (!lexer.inFlow)
    else if c == ':' && (lexer.inFlow || isIndicator) then lexer.colon
    else if (c == '|' || c == '>') && !lexer.inFlow then lexer.block (c == '>')
    else if startsPlain lexer.inFlow c next then lexer.plain
    else .error .malformed

/-- How many tokens are settled. -/
def settled (lexer : Lexer) : Nat :=
  lexer.places.foldl (fun count place? => match place? with
    | some place => if lexer.isStale place then count else min count place.token
    | none => count) lexer.tokens.length

/-- The state in front of the next token: blanks passed, and block collections closed. -/
def approach (lexer : Lexer) : Except Failure Lexer := do
  let lexer ← (lexer.skipMark.skipBlanks (lexer.cursor.rest.length + 1)).dropStalePlaces
  return lexer.unwind lexer.cursor.column

/-- All tokens, up to where the text cannot be cut further. -/
def run : Nat → Lexer → List Token
  | 0, lexer => (Token.broken .malformed :: lexer.tokens).reverse
  | fuel + 1, lexer =>
    let next : Except Failure (Lexer × Bool) := do
      let lexer ← lexer.approach
      match lexer.cursor.peek 0 with
      | none => return (← lexer.atMargin, true)
      | some c => return (← lexer.token c, false)
    match next with
    | .ok (lexer, true) => lexer.tokens.reverse
    | .ok (lexer, false) => run fuel lexer
    | .error failure => lexer.tokens.reverse.take lexer.settled ++ [.broken failure]

end Lexer

def isTextChar (c : Char) : Bool :=
  let n := c.toNat
  n == 0x09 || n == 0x0a || n == 0x0d || (0x20 ≤ n && n ≤ 0x7e) || n == 0x85 ||
    (0xa0 ≤ n && n ≤ 0xfffd) || 0x10000 ≤ n

/-- A text in which every carriage return, with the line feed after it, is a line feed. -/
def joinLineEnds : List Char → List Char
  | '\r' :: '\n' :: rest => '\n' :: joinLineEnds rest
  | '\r' :: rest => '\n' :: joinLineEnds rest
  | c :: rest => c :: joinLineEnds rest
  | [] => []

def tokens (text : String) : List Token :=
  let cs := joinLineEnds text.toList
  if cs.all isTextChar then Lexer.run (cs.length + 1) (Lexer.start cs)
  else [.broken .malformed]

end ShapeSchema.Yaml
