import ShapeSchema.Reflection.TypeTerm

/-!
Declared classes. Records may have type parameters; models may rename and hide fields. A class
takes over the fields of its base: they come first, and a field that is declared again keeps its
place. The annotations of models are evaluated when the class is declared, those of records when it
is looked at.
-/

namespace ShapeSchema

structure ClassField where
  name : String
  term : TypeTerm
  /-- Constraints that stand beside the type expression. -/
  constraints : Constraints
  /-- What is said about the field beside the type expression. -/
  description : FieldDescription
  name_ne_empty : name ≠ ""

inductive ClassForm where
  | record (parameters : List String)
  /-- A model; it may say whether it admits further values. -/
  | model (allowsExtra : Option Bool)
  /-- A class without fields to reflect. -/
  | plain

/-- The name under which a class keeps a private field, one whose name begins with two low lines and
does not end in two: the name of the class stands before it. -/
def privateName (owner field : String) : String :=
  let stem := owner.toList.dropWhile (· == '_')
  if field.startsWith "__" && !field.endsWith "__" && !stem.isEmpty then
    "_" ++ String.ofList stem ++ field
  else field

/-- The name under which a class keeps a field. A model has no fields whose names begin with a low
line. -/
def ClassForm.fieldName? (form : ClassForm) (owner field : String) : Option String :=
  match form with
  | record _ => some (privateName owner field)
  | model _ => if field.startsWith "_" then none else some field
  | plain => none

structure ClassDeclaration where
  name : String
  base? : Option String
  form : ClassForm
  fields : List ClassField

abbrev ClassTable := List ClassDeclaration

namespace ClassTable

/-- The class of a name; a later declaration replaces an earlier one. -/
def find? (table : ClassTable) (name : String) : Option ClassDeclaration :=
  table.reverse.find? (·.name == name)

/-- A field added to others, in place of one with its name. -/
def addField {α : Type} (name : α → String) (fields : List α) (field : α) : List α :=
  if fields.any (name · == name field) then
    fields.map fun other => if name other = name field then field else other
  else fields ++ [field]

/-- A class and its bases, the outermost base first. The first argument bounds their number. -/
def lineage (table : ClassTable) : (count : Nat) → ClassDeclaration → List ClassDeclaration
  | 0, type => [type]
  | count + 1, type =>
    match type.base?.bind table.find? with
    | some base => lineage table count base ++ [type]
    | none => [type]

def lineageOf (table : ClassTable) (type : ClassDeclaration) : List ClassDeclaration :=
  table.lineage table.length type

def ownFields (type : ClassDeclaration) : List ClassField :=
  type.fields.foldl (addField (·.name)) []

def fieldsOf (table : ClassTable) (type : ClassDeclaration) : List ClassField :=
  ((table.lineageOf type).flatMap ownFields).foldl (addField (·.name)) []

def evaluateAll (table : ClassTable) (fields : List ClassField) :
    Evaluation (List (ClassField × TypeExpr)) :=
  fields.mapM fun field => do
    return (field, ← field.term.evaluate fun name => (table.find? name).isSome)

/-- All fields of a class with the values of their annotations. Those of its bases are evaluated
first, also those of fields that are declared again. -/
def evaluateFields (table : ClassTable) (type : ClassDeclaration) :
    Evaluation (List (ClassField × TypeExpr)) := do
  let fields ← table.evaluateAll ((table.lineageOf type).flatMap ownFields)
  return fields.foldl (addField (·.1.name)) []

/-- Evaluates the annotations of the models. A name that is not defined is left to be found missing
later. -/
def evaluateModels (table : ClassTable) : Except EvaluationError Evaluated :=
  table.foldlM (fun evaluated type =>
    match type.form with
    | .model _ =>
      match (table.evaluateAll (ownFields type)).run evaluated with
      | .ok (_, evaluated) => .ok evaluated
      | .error (.undefinedName _) => .ok evaluated
      | .error error => .error error
    | _ => .ok evaluated) .nothing

/-- Whether a model admits further values: what the nearest class says that says anything. -/
def allowsExtra (table : ClassTable) (type : ClassDeclaration) : Bool :=
  ((table.lineageOf type).reverse.findSome? fun ancestor =>
    match ancestor.form with
    | .model allows => allows
    | _ => none).getD false

end ClassTable
end ShapeSchema
