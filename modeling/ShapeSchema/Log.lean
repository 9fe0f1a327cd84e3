import ShapeSchema.Json.Literal

/-!
Log lines: one JSON object of ASCII characters for each record.
-/

namespace ShapeSchema.Log

/-- What is logged. The message is a template if there are arguments for it. -/
structure Record where
  timestamp : String
  level : String
  logger : String
  template : String
  arguments : List Json

/-- An argument as text: strings as they are, other values as literals. -/
def argumentText : Json → List Char
  | .str text => text.toList
  | value => value.literal.toList

inductive TemplateError where
  | tooFewArguments
  | tooManyArguments
  | notNumber (type : String)
  | openPlace
  | unknownPlace (mark : Char) (position : Nat)
deriving DecidableEq

def TemplateError.message : TemplateError → String
  | tooFewArguments => "not enough arguments for format string"
  | tooManyArguments => "not all arguments converted during string formatting"
  | notNumber type => "%d format: a real number is required, not " ++ type
  | openPlace => "incomplete format"
  | unknownPlace mark position =>
    let shown := if '\x1f' ≤ mark && mark ≤ '~' then mark else '?'
    "unsupported format character '" ++ shown.toString ++ "' (0x" ++
      String.ofList (Nat.toDigits 16 mark.toNat) ++ ") at index " ++ toString position

/-- An argument as a whole number: of a number that is not whole the part before the point, and of
a truth value zero or one. -/
def argumentNumber : Json → Except TemplateError (List Char)
  | .num value =>
    match value.toRat? with
    | some q => .ok (toString (q.num.tdiv q.den)).toList
    | none => .error (.notNumber "float")
  | .bool value => .ok [if value then '1' else '0']
  | value => .error (.notNumber value.typeName)

/-- What fills the places of a template: arguments in order, all of which have to be used, or one
object, which may stay unused. -/
structure Filling where
  arguments : List Json
  complete : Bool

/-- A single object that is not empty stands for named values, so it need not fill a place. -/
def Filling.ofArguments : List Json → Filling
  | [.obj (member :: members)] => ⟨[.obj (member :: members)], false⟩
  | arguments => ⟨arguments, true⟩

/-- A template from a position on with its places filled in order: `%s` by any value, `%d` by a
whole number; `%%` is a percent sign. -/
def fill (filling : Filling) (position : Nat) : List Char → Except TemplateError (List Char)
  | [] =>
    if filling.complete && !filling.arguments.isEmpty then .error .tooManyArguments else .ok []
  | '%' :: '%' :: rest => ('%' :: ·) <$> fill filling (position + 2) rest
  | '%' :: mark :: rest => do
    let show? : Option (Json → Except TemplateError (List Char)) := match mark with
      | 's' => some fun argument => .ok (argumentText argument)
      | 'd' => some argumentNumber
      | _ => none
    match show?, filling.arguments with
    | some shown, argument :: arguments =>
      return (← shown argument) ++ (← fill { filling with arguments } (position + 2) rest)
    | _, [] => throw .tooFewArguments
    | none, _ => throw (.unknownPlace mark (position + 1))
  | ['%'] => .error .openPlace
  | c :: rest => (c :: ·) <$> fill filling (position + 1) rest

/-- The message of a record: the template itself where there are no arguments. -/
def Record.message (record : Record) : Except TemplateError String :=
  if record.arguments.isEmpty then .ok record.template
  else String.ofList <$> fill (.ofArguments record.arguments) 0 record.template.toList

def Record.line (record : Record) : Except TemplateError String := do
  return Json.text .ascii (.obj [("ts", .str record.timestamp), ("level", .str record.level),
    ("logger", .str record.logger), ("msg", .str (← record.message))])

end ShapeSchema.Log
