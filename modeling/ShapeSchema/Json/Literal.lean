import ShapeSchema.Json.Text
import ShapeSchema.Unicode.Printable

/-!
Values as literals, the form in which messages show them: `None`, `True` and `False`, strings in
single quotes, and what cannot be printed as an escape.
-/

namespace ShapeSchema.Json

/-- The quote of a string literal: single, unless the text has single quotes and no double one. -/
def literalQuote (text : List Char) : Char :=
  if text.contains '\x27' && !text.contains '"' then '"' else '\x27'

def literalChar (quote c : Char) : List Char :=
  if c = quote ∨ c = '\\' then ['\\', c]
  else match c with
    | '\n' => ['\\', 'n']
    | '\r' => ['\\', 'r']
    | '\t' => ['\\', 't']
    | c =>
      let n := c.toNat
      if Unicode.isPrintable c then [c]
      else if n < 0x100 then '\\' :: 'x' :: hexDigits 2 n
      else if n < 0x10000 then '\\' :: 'u' :: hexDigits 4 n
      else '\\' :: 'U' :: hexDigits 8 n

def literalString (text : String) (rest : List Char) : List Char :=
  let quote := literalQuote text.toList
  quote :: text.toList.flatMap (literalChar quote) ++ quote :: rest

mutual
def writeLiteral : Json → List Char → List Char
  | null, rest => "None".toList ++ rest
  | bool true, rest => "True".toList ++ rest
  | bool false, rest => "False".toList ++ rest
  | num n, rest => (n.text "inf" "nan").toList ++ rest
  | str s, rest => literalString s rest
  | arr [], rest => '[' :: ']' :: rest
  | arr (item :: items), rest => '[' :: writeLiteral item (writeLiteralItems items (']' :: rest))
  | obj [], rest => '{' :: '}' :: rest
  | obj ((key, value) :: members), rest =>
    '{' :: literalString key
      (':' :: ' ' :: writeLiteral value (writeLiteralMembers members ('}' :: rest)))

/-- The items after the first one, followed by `rest`. -/
def writeLiteralItems : List Json → List Char → List Char
  | [], rest => rest
  | item :: items, rest => ',' :: ' ' :: writeLiteral item (writeLiteralItems items rest)

def writeLiteralMembers : List (String × Json) → List Char → List Char
  | [], rest => rest
  | (key, value) :: members, rest =>
    ',' :: ' ' :: literalString key
      (':' :: ' ' :: writeLiteral value (writeLiteralMembers members rest))
end

def literal (value : Json) : String :=
  String.ofList (value.writeLiteral [])

def typeName : Json → String
  | null => "NoneType"
  | bool _ => "bool"
  | num (.int _) => "int"
  | num (.double _) => "float"
  | str _ => "str"
  | arr _ => "list"
  | obj _ => "dict"

end ShapeSchema.Json
