import ShapeSchema.Json.Reader
import ShapeSchema.Yaml.Cursor

/-!
The texts of scalars: plain ones, quoted ones and blocks of lines. Within a scalar a single line
break counts as a space, and of several the first is dropped. Every reader takes the fuel of its
loops from the length of the text.
-/

namespace ShapeSchema.Yaml

structure Read where
  text : List Char
  cursor : Cursor

/-- What a line break and the empty lines after it stand for. -/
def foldBreaks (first : Char) (others : List Char) : List Char :=
  if first != '\n' then first :: others
  else if others.isEmpty then [' ']
  else others

/-! ### Plain scalars -/

def isFlowIndicator (c : Char) : Bool :=
  c == ',' || c == '[' || c == ']' || c == '{' || c == '}'

/-- The characters of a plain scalar up to the next blank or indicator. -/
def plainRun (inFlow : Bool) : List Char → List Char
  | [] => []
  | c :: rest =>
    let next := rest.head?
    if endsIndicator (some c) then []
    else if c == ':' && (endsIndicator next || (inFlow && next.any isFlowIndicator)) then []
    else if inFlow && (c == '?' || isFlowIndicator c) then []
    else c :: plainRun inFlow rest

/-- The empty lines between two lines of a plain scalar; none at the end of the document. -/
def plainBreaks : Nat → Cursor → Option (List Char) × Cursor
  | 0, cursor => (none, cursor)
  | fuel + 1, cursor =>
    if cursor.peek 0 == some ' ' then plainBreaks fuel cursor.next
    else
      match cursor.lineBreak? with
      | none => (some [], cursor)
      | some (c, after) =>
        if after.atSeparator then (none, after)
        else
          let (others, last) := plainBreaks fuel after
          (others.map (c :: ·), last)

/-- What stands between two words of a plain scalar. Nothing stands after its last word. -/
structure Gap where
  text : List Char
  /-- Whether a line ends in between. -/
  broken : Bool
  cursor : Cursor

def plainGap (cursor : Cursor) : Gap :=
  let (spaces, cursor) := cursor.span (· == ' ')
  match cursor.lineBreak? with
  | none => ⟨spaces, false, cursor⟩
  | some (c, after) =>
    if after.atSeparator then ⟨[], true, after⟩
    else
      match plainBreaks (after.rest.length + 1) after with
      | (none, cursor) => ⟨[], true, cursor⟩
      | (some others, cursor) => ⟨foldBreaks c others, true, cursor⟩

/-- The words of a plain scalar from a gap on, and whether a line ends after the last one. -/
def plainWords (inFlow : Bool) (indent : Int) : Nat → Gap → Read × Bool
  | 0, gap => (⟨[], gap.cursor⟩, gap.broken)
  | fuel + 1, gap =>
    let word := plainRun inFlow gap.cursor.rest
    if gap.cursor.peek 0 == some '#' || word.isEmpty then (⟨[], gap.cursor⟩, gap.broken)
    else
      let after := plainGap (gap.cursor.skip word.length)
      let cursor := after.cursor
      if after.text.isEmpty || cursor.peek 0 == some '#' || (!inFlow && cursor.column < indent) then
        (⟨gap.text ++ word, cursor⟩, after.broken)
      else
        let (words, broken) := plainWords inFlow indent fuel after
        (⟨gap.text ++ word ++ words.text, words.cursor⟩, broken)

/-- A plain scalar in lines of at least the given indentation, and whether a line ends after it. -/
def readPlain (inFlow : Bool) (indent : Int) (cursor : Cursor) : Read × Bool :=
  plainWords inFlow indent (cursor.rest.length + 1) ⟨[], false, cursor⟩

/-! ### Quoted scalars -/

def quotedBreaks : Nat → Cursor → Except Failure Read
  | 0, _ => .error .malformed
  | fuel + 1, cursor =>
    if cursor.atSeparator then .error .malformed
    else
      let cursor := cursor.skipWhile (fun c => c == ' ' || c == '\t')
      match cursor.lineBreak? with
      | none => .ok ⟨[], cursor⟩
      | some (c, after) => do
        let others ← quotedBreaks fuel after
        return ⟨c :: others.text, others.cursor⟩

/-- The character that a single letter after a backslash stands for. -/
def escapedChar? : Char → Option Char
  | '0' => some '\x00'
  | 'a' => some '\x07'
  | 'b' => some '\x08'
  | 't' => some '\t'
  | '\t' => some '\t'
  | 'n' => some '\n'
  | 'v' => some '\x0b'
  | 'f' => some '\x0c'
  | 'r' => some '\r'
  | 'e' => some '\x1b'
  | ' ' => some ' '
  | '"' => some '"'
  | '\\' => some '\\'
  | '/' => some '/'
  | 'N' => some '\x85'
  | '_' => some '\xa0'
  | 'L' => some '\u2028'
  | 'P' => some '\u2029'
  | _ => none

/-- How many digits follow a letter after a backslash. -/
def escapeWidth? : Char → Option Nat
  | 'x' => some 2
  | 'u' => some 4
  | 'U' => some 8
  | _ => none

def hexNumber? (digits : List Char) : Option Nat :=
  digits.foldl (fun n? c => do return (← n?) * 16 + (← Json.hexValue? c)) (some 0)

/-- What a backslash and the characters after it stand for, from the position after it. -/
def readEscape (cursor : Cursor) : Except Failure Read :=
  match cursor.rest with
  | [] => .error .malformed
  | c :: rest =>
    match escapedChar? c, escapeWidth? c with
    | some char, _ => .ok ⟨[char], cursor.next⟩
    | none, some width =>
      if rest.length < width then .error .malformed
      else
        match hexNumber? (rest.take width) with
        | none => .error .malformed
        | some code =>
          if 0x10ffff < code then .error .outOfRange
          else .ok ⟨Json.joinUnits [code], cursor.skip (width + 1)⟩
    | none, none =>
      match cursor.lineBreak? with
      | none => .error .malformed
      | some (_, after) => quotedBreaks (after.rest.length + 1) after

def quotedGap (cursor : Cursor) : Except Failure Read :=
  let (blanks, cursor) := cursor.span (fun c => c == ' ' || c == '\t')
  match cursor.lineBreak? with
  | none => .ok ⟨blanks, cursor⟩
  | some (c, after) => do
    let others ← quotedBreaks (after.rest.length + 1) after
    return ⟨foldBreaks c others.text, others.cursor⟩

/-- A quoted scalar after its opening quote. In double quotes a backslash starts an escape, in
single quotes a quote is written twice. -/
def quotedRest (quote : Char) : Nat → Cursor → Except Failure Read
  | 0, _ => .error .malformed
  | fuel + 1, cursor => do
    let prepend (part : Read) : Except Failure Read := do
      let others ← quotedRest quote fuel part.cursor
      return ⟨part.text ++ others.text, others.cursor⟩
    match cursor.rest with
    | [] => .error .malformed
    | c :: rest =>
      if c == quote then
        if quote == '\x27' && rest.head? == some '\x27' then prepend ⟨[c], cursor.skip 2⟩
        else return ⟨[], cursor.next⟩
      else if c == '\\' && quote == '"' then prepend (← readEscape cursor.next)
      else if endsIndicator (some c) then prepend (← quotedGap cursor)
      else prepend ⟨[c], cursor.next⟩

def readQuoted (quote : Char) (cursor : Cursor) : Except Failure Read :=
  quotedRest quote (cursor.rest.length + 1) cursor.next

/-! ### Blocks of lines -/

/-- What becomes of the line breaks at the end of a block. -/
inductive Chomping where
  | strip | clip | keep
deriving DecidableEq

def chomping? : Option Char → Option Chomping
  | some '+' => some .keep
  | some '-' => some .strip
  | _ => none

def digit? : Option Char → Option Nat
  | some c => if Json.isDigit c then some (c.toNat - '0'.toNat) else none
  | none => none

/-- The signs after the mark of a block: what becomes of its end, and its further indentation. -/
def blockHeader (cursor : Cursor) : Except Failure (Chomping × Option Nat × Cursor) := do
  let (chomping, step, cursor) :=
    match chomping? (cursor.peek 0), digit? (cursor.peek 0) with
    | some chomping, _ =>
      match digit? (cursor.peek 1) with
      | some step => (chomping, some step, cursor.skip 2)
      | none => (chomping, none, cursor.next)
    | none, some step =>
      match chomping? (cursor.peek 1) with
      | some chomping => (chomping, some step, cursor.skip 2)
      | none => (.clip, some step, cursor.next)
    | none, none => (.clip, none, cursor)
  if step == some 0 || !endsWord (cursor.peek 0) then throw .malformed
  return (chomping, step, ← cursor.emptyLine)

/-- The blank lines in front of a block, and the widest of their indentations. -/
def blockIndentation : Nat → Cursor → Nat → Read × Nat
  | 0, cursor, widest => (⟨[], cursor⟩, widest)
  | fuel + 1, cursor, widest =>
    if cursor.peek 0 == some ' ' then
      blockIndentation fuel cursor.next (max widest cursor.next.column)
    else
      match cursor.lineBreak? with
      | none => (⟨[], cursor⟩, widest)
      | some (c, after) =>
        let (others, widest) := blockIndentation fuel after widest
        (⟨c :: others.text, others.cursor⟩, widest)

/-- The position after at most as many spaces as reach the column. -/
def skipToColumn (column : Nat) (cursor : Cursor) : Cursor :=
  cursor.skip ((cursor.rest.take (column - cursor.column)).takeWhile (· == ' ')).length

/-- The blank lines within a block of the given indentation. -/
def blockBreaks (indent : Nat) : Nat → Cursor → Read
  | 0, cursor => ⟨[], cursor⟩
  | fuel + 1, cursor =>
    let cursor := skipToColumn indent cursor
    match cursor.lineBreak? with
    | none => ⟨[], cursor⟩
    | some (c, after) =>
      let others := blockBreaks indent fuel after
      ⟨c :: others.text, others.cursor⟩

/-- The lines of a block, where `breaks` are the blank lines in front. In a folded block a line
break between two lines that start with a word is a space. -/
def blockLines (folded : Bool) (chomping : Chomping) (indent : Nat) :
    Nat → List Char → Cursor → Read
  | 0, _, cursor => ⟨[], cursor⟩
  | fuel + 1, breaks, cursor =>
    let startsWithBlank (cursor : Cursor) : Bool :=
      cursor.peek 0 == some ' ' || cursor.peek 0 == some '\t'
    let (line, after) := cursor.span (!isBreak ·)
    let (lineBreak, after) := match after.lineBreak? with
      | some (c, after) => ([c], after)
      | none => ([], after)
    let others := blockBreaks indent (after.rest.length + 1) after
    if others.cursor.column == indent && !others.cursor.rest.isEmpty then
      let between :=
        if folded && lineBreak == ['\n'] && !startsWithBlank cursor &&
            !startsWithBlank others.cursor then
          if others.text.isEmpty then [' '] else []
        else lineBreak
      let following := blockLines folded chomping indent fuel others.text others.cursor
      ⟨breaks ++ line ++ between ++ following.text, following.cursor⟩
    else
      let tail := match chomping with
        | .strip => []
        | .clip => lineBreak
        | .keep => lineBreak ++ others.text
      ⟨breaks ++ line ++ tail, others.cursor⟩

/-- A block of lines after its mark, within a collection of the given indentation. -/
def readBlock (folded : Bool) (outer : Int) (cursor : Cursor) : Except Failure Read := do
  let (chomping, step, cursor) ← blockHeader cursor
  let least := (outer + 1).toNat.max 1
  let fuel := cursor.rest.length + 1
  let (breaks, indent) := match step with
    | none =>
      let (breaks, widest) := blockIndentation fuel cursor 0
      (breaks, max least widest)
    | some step => (blockBreaks (least + step - 1) fuel cursor, least + step - 1)
  if breaks.cursor.column == indent && !breaks.cursor.rest.isEmpty then
    return blockLines folded chomping indent fuel breaks.text breaks.cursor
  else
    return ⟨if chomping == .keep then breaks.text else [], breaks.cursor⟩

end ShapeSchema.Yaml
