import ShapeSchema.Error
import ShapeSchema.Unicode.Case

/-!
Case conventions for the keys of a container. Fields are declared in snake case and variants in
Pascal case; a rule spells all names of a container the same way. Names may hold any character, so
letters change case by the full mappings.
-/

namespace ShapeSchema

inductive RenameRule where
  | lowercase | uppercase | pascalCase | camelCase | snakeCase | screamingSnakeCase
  | kebabCase | screamingKebabCase
deriving DecidableEq

namespace RenameRule

def all : List RenameRule :=
  [lowercase, uppercase, pascalCase, camelCase, snakeCase, screamingSnakeCase, kebabCase,
    screamingKebabCase]

/-- The spelling of a rule, which is an example of it. -/
def spelling : RenameRule → String
  | lowercase => "lowercase"
  | uppercase => "UPPERCASE"
  | pascalCase => "PascalCase"
  | camelCase => "camelCase"
  | snakeCase => "snake_case"
  | screamingSnakeCase => "SCREAMING_SNAKE_CASE"
  | kebabCase => "kebab-case"
  | screamingKebabCase => "SCREAMING-KEBAB-CASE"

def parse (text : String) : Except Defect RenameRule :=
  match all.find? (·.spelling == text) with
  | some rule => .ok rule
  | none => .error (.unknownRenameRule text (all.map spelling))

def hyphenate (cs : List Char) : List Char :=
  cs.map fun c => if c = '_' then '-' else c

def uncapitalize : List Char → List Char
  | [] => []
  | c :: rest => Unicode.lower c ++ rest

/-- A snake-case name in Pascal case: underscores go, and each part begins with a capital. -/
def capitalizeParts : (atStart : Bool) → List Char → List Char
  | _, [] => []
  | atStart, c :: rest =>
    if c = '_' then capitalizeParts true rest
    else if atStart then Unicode.upper c ++ capitalizeParts false rest
    else c :: capitalizeParts false rest

/-- A Pascal-case name in snake case: an underscore before each capital but a first one, and all
letters in lower case. -/
def splitCapitals : (atStart : Bool) → List Char → List Char
  | _, [] => []
  | atStart, c :: rest =>
    (if Unicode.isUpper c && !atStart then ['_'] else []) ++ Unicode.lower c ++
      splitCapitals false rest

/-- The form of a snake-case field name under a rule, as characters. -/
def fieldForm : RenameRule → List Char → List Char
  | lowercase, name | snakeCase, name => name
  | uppercase, name | screamingSnakeCase, name => Unicode.upperText name
  | pascalCase, name => capitalizeParts true name
  | camelCase, name => uncapitalize (capitalizeParts true name)
  | kebabCase, name => hyphenate name
  | screamingKebabCase, name => hyphenate (Unicode.upperText name)

def variantForm : RenameRule → List Char → List Char
  | pascalCase, name => name
  | lowercase, name => Unicode.lowerText name
  | uppercase, name => Unicode.upperText name
  | camelCase, name => uncapitalize name
  | snakeCase, name => splitCapitals true name
  | screamingSnakeCase, name => Unicode.upperText (splitCapitals true name)
  | kebabCase, name => hyphenate (splitCapitals true name)
  | screamingKebabCase, name => hyphenate (Unicode.upperText (splitCapitals true name))

def applyToField (rule : RenameRule) (name : String) : String :=
  String.ofList (rule.fieldForm name.toList)

def applyToVariant (rule : RenameRule) (name : String) : String :=
  String.ofList (rule.variantForm name.toList)

end RenameRule

/-- The key of a field: an explicit one wins over the rule of the container, and that over the
declared name. -/
def fieldKey (declared : String) (rename : Option String) (rule : Option RenameRule) : String :=
  rename.getD ((rule.map (·.applyToField declared)).getD declared)

/-- The key of a variant, chosen like that of a field. -/
def variantKey (declared : String) (rename : Option String) (rule : Option RenameRule) : String :=
  rename.getD ((rule.map (·.applyToVariant declared)).getD declared)

end ShapeSchema
