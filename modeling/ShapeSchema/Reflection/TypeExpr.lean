import ShapeSchema.Reflection.Refinement
import ShapeSchema.Shape

/-!
Type expressions as data, in the form in which they are when they have been evaluated: unions are
flat and without repetition, and refinements around refinements are one list. The module also
gives the short name of a type expression, which messages and unions use, and its full text.
-/

namespace ShapeSchema

/-- The classes that type expressions name without declaring them. -/
inductive StandardClass where
  | int | float | str | bool | bytes | bytearray | object | complex
  | dict | list | set | frozenset | tuple | type | noneType
  | any | uuid | datetime | date | time | decimal
  | abcSequence | abcMutableSequence | abcSet | abcMutableSet | abcMapping | abcMutableMapping
  | abcIterable
deriving DecidableEq

namespace StandardClass

/-- The module of a class with a dot behind it; built-in classes have none. -/
def qualifier : StandardClass → String
  | any => "typing."
  | uuid => "uuid."
  | datetime | date | time => "datetime."
  | decimal => "decimal."
  | abcSequence | abcMutableSequence | abcSet | abcMutableSet | abcMapping | abcMutableMapping
  | abcIterable => "collections.abc."
  | _ => ""

def name : StandardClass → String
  | int => "int"
  | float => "float"
  | str => "str"
  | bool => "bool"
  | bytes => "bytes"
  | bytearray => "bytearray"
  | object => "object"
  | complex => "complex"
  | dict => "dict"
  | list => "list"
  | set => "set"
  | frozenset => "frozenset"
  | tuple => "tuple"
  | type => "type"
  | noneType => "NoneType"
  | any => "Any"
  | uuid => "UUID"
  | datetime => "datetime"
  | date => "date"
  | time => "time"
  | decimal => "Decimal"
  | abcSequence => "Sequence"
  | abcMutableSequence => "MutableSequence"
  | abcSet => "Set"
  | abcMutableSet => "MutableSet"
  | abcMapping => "Mapping"
  | abcMutableMapping => "MutableMapping"
  | abcIterable => "Iterable"

end StandardClass

/-- Other names of container classes. An alias is not the same type expression as its class. -/
inductive ContainerAlias where
  | list | dict | set | frozenSet | tuple
deriving DecidableEq

namespace ContainerAlias

def name : ContainerAlias → String
  | list => "List"
  | dict => "Dict"
  | set => "Set"
  | frozenSet => "FrozenSet"
  | tuple => "Tuple"

def origin : ContainerAlias → StandardClass
  | list => .list
  | dict => .dict
  | set => .set
  | frozenSet => .frozenset
  | tuple => .tuple

end ContainerAlias

/-- What a type expression names, alone or with arguments. -/
inductive TypeHead where
  | standard (container : StandardClass)
  | synonym (container : ContainerAlias)
  /-- A declared class. -/
  | declared (name : String)
deriving DecidableEq

/-- Whether a union was written with bars between its members. -/
inductive UnionStyle where
  | named | bars
deriving DecidableEq

inductive TypeExpr where
  /-- The value none, as opposed to its class. -/
  | none
  | ellipsis
  | named (head : TypeHead)
  | applied (head : TypeHead) (arguments : List TypeExpr)
  | union (style : UnionStyle) (members : List TypeExpr)
  | literal (values : List Json)
  | parameter (name : String)
  | annotated (base : TypeExpr) (refinements : List Refinement)
deriving Inhabited

namespace TypeHead

def name : TypeHead → String
  | standard container => container.name
  | synonym container => container.name
  | declared name => name

/-- The full name of what is named; declared classes belong to the module `m`. -/
def text : TypeHead → String
  | standard container => container.qualifier ++ container.name
  | synonym container => "typing." ++ container.name
  | declared name => "m." ++ name

/-- The class that containers of this name are made by, if it is a standard one. -/
def origin? : TypeHead → Option StandardClass
  | standard container => some container
  | synonym container => some container.origin
  | declared _ => .none

end TypeHead

namespace TypeExpr

def noneType : TypeExpr :=
  named (.standard .noneType)

def isNoneType : TypeExpr → Bool
  | named (.standard .noneType) => true
  | _ => false

/-- A type expression with the class in place of the value none, as most positions have it. -/
def asClass : TypeExpr → TypeExpr
  | none => noneType
  | expr => expr

mutual
/-- Whether two type expressions are the same. The order of the members of a union and of the values
of a choice does not matter. -/
def same : TypeExpr → TypeExpr → Bool
  | none, b => match b with
    | none => true
    | _ => false
  | ellipsis, b => match b with
    | ellipsis => true
    | _ => false
  | named head, b => match b with
    | named other => head = other
    | _ => false
  | applied head arguments, b => match b with
    | applied other others => head = other && sameAll arguments others
    | _ => false
  | union _ members, b => match b with
    | union _ others => sameAmong members others && covers members others
    | _ => false
  | literal values, b => match b with
    | literal others => values.length = others.length && values.all (· ∈ others)
    | _ => false
  | parameter name, b => match b with
    | parameter other => name = other
    | _ => false
  | annotated base refinements, b => match b with
    | annotated other others =>
      same base other && refinements.length = others.length &&
        (refinements.zip others).all fun (a, b) => a.same b
    | _ => false

def sameAll : List TypeExpr → List TypeExpr → Bool
  | [], others => others.isEmpty
  | a :: rest, others => match others with
    | b :: others => same a b && sameAll rest others
    | [] => false

def sameAmong : List TypeExpr → List TypeExpr → Bool
  | [], _ => true
  | a :: rest, others => others.any (same a) && sameAmong rest others

/-- Whether each of others is the same as one of several type expressions. -/
def covers : List TypeExpr → List TypeExpr → Bool
  | [], others => others.isEmpty
  | a :: rest, others => covers rest (others.filter fun b => !same a b)
end

def appliedText (head : TypeHead) (shown : List String) : String :=
  head.text ++ "[" ++ (if shown.isEmpty then "()" else ", ".intercalate shown) ++ "]"

/-- The text of a named union; one with two members of which one is none is optional. -/
def unionText (members : List TypeExpr) (shown : List String) : String :=
  match members, shown with
  | [a, b], [x, y] =>
    if a.isNoneType then "typing.Optional[" ++ y ++ "]"
    else if b.isNoneType then "typing.Optional[" ++ x ++ "]"
    else "typing.Union[" ++ x ++ ", " ++ y ++ "]"
  | _, shown => "typing.Union[" ++ ", ".intercalate shown ++ "]"

/-- The text of a member between bars, where the class of none is written as its value. -/
def barText (member : TypeExpr) (shown : String) : String :=
  if member.isNoneType then "None" else shown

def annotatedText (shown : String) (refinements : List Refinement) : String :=
  "typing.Annotated[" ++ ", ".intercalate (shown :: refinements.map Refinement.text) ++ "]"

mutual
def text : TypeExpr → String
  | none => "None"
  | ellipsis => "..."
  | named head => head.text
  | applied head arguments => appliedText head (texts arguments)
  | union .named members => unionText members (texts members)
  | union .bars members => " | ".intercalate (barTexts members)
  | literal values => "typing.Literal[" ++ ", ".intercalate (values.map Json.literal) ++ "]"
  | parameter name => "~" ++ name
  | annotated base refinements => annotatedText (text base) refinements

def texts : List TypeExpr → List String
  | [] => []
  | a :: rest => text a :: texts rest

def barTexts : List TypeExpr → List String
  | [] => []
  | a :: rest => barText a (text a) :: barTexts rest
end

/-- The short name of a type expression. A union between bars has none and shows its text, without
the module in front; so does what has an empty name. -/
def name : TypeExpr → String
  | none => "None"
  | ellipsis => "Ellipsis"
  | named head => if head.name = "" then "<class '" ++ head.text ++ "'>" else head.name
  | a@(applied head _) => if head.name = "" then a.text else head.name
  | union .named members =>
    if members.length = 2 ∧ members.any isNoneType then "Optional" else "Union"
  | a@(union .bars _) => (a.text.dropPrefix "typing.").toString
  | literal _ => "Literal"
  | parameter name => if name = "" then (parameter name).text else name
  | annotated .. => "Annotated"

/-- The members of a list without those that are the same as an earlier one. -/
def distinct : List TypeExpr → List TypeExpr
  | exprs =>
    exprs.foldl (fun kept a => if kept.any (same a) then kept else kept ++ [a]) []

/-- The members that a type expression contributes to a union around it. -/
def unionMembers : TypeExpr → List TypeExpr
  | union _ members => members
  | expr => [expr.asClass]

/-- The union of type expressions: flat, without repetition, and no union at all if one is left. -/
def unionOf (style : UnionStyle) (exprs : List TypeExpr) : TypeExpr :=
  match distinct (exprs.flatMap unionMembers) with
  | [single] => single
  | members => union style members

/-- Whether bars between type expressions of this form make a union of their own style. -/
def isPlain : TypeExpr → Bool
  | none | named (.standard _) | named (.declared _) | applied (.standard _) _ | union .bars _ =>
    true
  | _ => false

/-- The style of the union that a bar between two type expressions makes. -/
def barStyle (a b : TypeExpr) : UnionStyle :=
  if a.isPlain && b.isPlain then .bars else .named

/-- A type expression with arguments; built-in containers keep the value none among them. -/
def applyTo (head : TypeHead) (arguments : List TypeExpr) : TypeExpr :=
  match head with
  | .standard _ => applied head arguments
  | .synonym _ | .declared _ => applied head (arguments.map asClass)

/-- A type expression with refinements, inner ones first. -/
def refine (base : TypeExpr) (refinements : List Refinement) : TypeExpr :=
  match base with
  | annotated inner earlier => annotated inner (earlier ++ refinements)
  | base => annotated base.asClass refinements

/-- A choice of values, without repetition. -/
def literalOf (values : List Json) : TypeExpr :=
  literal (values.foldl (fun kept v => if v ∈ kept then kept else kept ++ [v]) [])

mutual
/-- The type of the first value in a type expression that cannot be looked up among others. -/
def unhashable? : TypeExpr → Option String
  | applied _ arguments => unhashableAmong? arguments
  | union _ members => unhashableAmong? members
  | literal values => values.findSome? Json.unhashable?
  | annotated base refinements =>
    (unhashable? base) <|> refinements.findSome? Refinement.unhashable?
  | none | ellipsis | named _ | parameter _ => .none

def unhashableAmong? : List TypeExpr → Option String
  | [] => .none
  | a :: rest => (unhashable? a) <|> unhashableAmong? rest
end

end TypeExpr
end ShapeSchema
