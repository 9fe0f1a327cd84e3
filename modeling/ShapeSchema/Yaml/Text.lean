import ShapeSchema.Json.Text
import ShapeSchema.Yaml.Tag

/-!
Writing documents as YAML: one line for every member, members of objects two columns further to the
right.
-/

namespace ShapeSchema.Yaml

/-- A text in single quotes, in which a quote is written twice. -/
def quotedText (text : String) : String :=
  String.ofList ('\x27' :: text.toList.flatMap (fun c => if c = '\x27' then [c, c] else [c])
    ++ ['\x27'])

/-- Whether a text is a word that stands for itself when it is not quoted. -/
def isPlainWord (text : String) : Bool :=
  text.toList.all (fun c => c.isAlphanum || c == '_') && Tag.ofPlain text = .str

/-- A text as a scalar: as it is where it stands for itself, in quotes otherwise. -/
def scalarText (text : String) : String :=
  if isPlainWord text then text else quotedText text

def entry (column : Nat) (key value : String) : String :=
  String.ofList (List.replicate column ' ') ++ scalarText key ++ ": " ++ value

mutual
def memberLines (column : Nat) (key : String) : Json → List String
  | .obj [] => [entry column key "\x7b\x7d"]
  | .obj members =>
    (String.ofList (List.replicate column ' ') ++ scalarText key ++ ":") ::
      membersLines (column + 2) members
  | .null => [entry column key "null"]
  | .bool value => [entry column key (if value then "true" else "false")]
  | .num n => [entry column key (n.text ".inf" ".nan")]
  | .str text => [entry column key (scalarText text)]
  | .arr items => [entry column key (Json.text .compact (.arr items))]

def membersLines (column : Nat) : List (String × Json) → List String
  | [] => []
  | (key, value) :: members => memberLines column key value ++ membersLines column members
end

def documentText (doc : Document) : String :=
  String.join ((membersLines 0 doc).map (· ++ "\n"))

end ShapeSchema.Yaml
