import ShapeSchema.Shape

/-!
Reading shape graphs from their JSON descriptions. A kind is its spelling, `"@X"` the shape that the
description names `X`, and an object with a member `k` any other shape. A declared type is entered
into the graph when it is met, and its content is read afterwards, so that named shapes may refer
to each other in any order.
-/

namespace ShapeSchema.Description

inductive ReadError where
  | part (error : DescriptionError)
  | defect (defect : Defect)
  /-- A member is missing or has the wrong form. -/
  | form (what : String)
deriving DecidableEq

/-- The state of a reading: the graph, the named shapes met so far, and the declared types whose
content is still to be read. -/
structure State where
  graph : Graph
  named : List (String × Shape)
  pending : List (Nat × Json)

abbrev Reader := StateT State (Except ReadError)

def part {α : Type} : Except DescriptionError α → Except ReadError α
  | .ok value => .ok value
  | .error error => .error (.part error)

def member? (key : String) : Json → Option Json
  | .obj members => Document.get? key members
  | _ => none

def textMember (key : String) (json : Json) : Except ReadError String :=
  match member? key json with
  | some (.str text) => .ok text
  | _ => .error (.form key)

/-- A member that is a sequence, empty if it is absent. -/
def listMember (key : String) (json : Json) : Except ReadError (List Json) :=
  match member? key json with
  | some (.arr items) => .ok items
  | none | some .null => .ok []
  | _ => .error (.form key)

def readKind : Json → Except ReadError PrimitiveKind
  | .str text => part (PrimitiveKind.parse text)
  | value => .error (.part (.keyNotKind value))

/-- The value of a bound; a number that JSON cannot write stands under a key of its own. -/
def readBound : Json → Json
  | .obj [("$float", .str "nan")] => .num (.double .nan)
  | .obj [("$float", .str "inf")] => .num (.double (.infinite false))
  | .obj [("$float", .str "-inf")] => .num (.double (.infinite true))
  | value => value

/-- A member whose null counts as absent. -/
def setMember? (key : String) (json : Json) : Option Json :=
  match member? key json with
  | some .null => none
  | found => found

def readConstraints (json : Json) : Constraints where
  minInclusive := (setMember? "min_inclusive" json).map readBound
  minExclusive := (setMember? "min_exclusive" json).map readBound
  maxInclusive := (setMember? "max_inclusive" json).map readBound
  maxExclusive := (setMember? "max_exclusive" json).map readBound
  rename := match member? "rename" json with
    | some (.str text) => some text
    | _ => none

/-- The constraints under a key, none if it is absent. -/
def constraintsMember (key : String) (json : Json) : Constraints :=
  ((setMember? key json).map readConstraints).getD .none

def ruleMember (key : String) (json : Json) : Except ReadError (Option RenameRule) :=
  match member? key json with
  | some (.str text) =>
    match RenameRule.parse text with
    | .ok rule => .ok (some rule)
    | .error defect => .error (.defect defect)
  | _ => .ok none

def readTagging : Json → Except ReadError Tagging
  | .null | .str "external" => .ok .external
  | .str "untagged" => .ok .untagged
  | .obj [("internal", .str tag)] => .ok (.internal tag)
  | .obj [("adjacent", .arr [.str tag, .str content])] => .ok (.adjacent tag content)
  | _ => .error (.form "tagging")

def wrap (make : Nat → Shape) : Reader Shape :=
  modifyGet fun state =>
    let (label, graph) := state.graph.freshLabel
    (make label, { state with graph })

/-- A new declared type, whose content is read later. -/
def declare (json : Json) (type : Declaration) : Reader Shape :=
  modifyGet fun state =>
    let (index, graph) := state.graph.declare type
    (.declared index, { state with graph, pending := (index, json) :: state.pending })

/-- The key kind of a map, which a description may also give as a plain value. -/
def readKey (json : Json) : Except ReadError PrimitiveKind :=
  match member? "raw_key" json, member? "key" json with
  | some value, _ => .error (.part (.keyNotKind value))
  | none, some (.str text) => part (PrimitiveKind.parse text)
  | none, _ => .error (.form "key")

/-- A shape. The second argument bounds how far descriptions are followed into each other. -/
def readShape (defs : Document) : (depth : Nat) → Json → Reader Shape
  | 0, _ => throw (.form "depth")
  | depth + 1, json => do
    match json with
    | .str "document" => return .document
    | .str "object_id" => return .objectId
    | .str text =>
      match text.toList with
      | '@' :: rest =>
        let name := String.ofList rest
        match (← get).named.lookup name, defs.get? name with
        | some shape, _ => return shape
        | none, some described =>
          let shape ← readShape defs depth described
          modify fun state => { state with named := (name, shape) :: state.named }
          return shape
        | none, none => throw (.form text)
      | _ => return .primitive (← part (PrimitiveKind.parse text))
    | json =>
      let inner := (member? "of" json).getD .null
      match ← textMember "k" json with
      | "optional" => let shape ← readShape defs depth inner; wrap (.optional · shape)
      | "array" => let shape ← readShape defs depth inner; wrap (.array · shape)
      | "set" => let shape ← readShape defs depth inner; wrap (.set · shape)
      | "fixed" =>
        let shape ← readShape defs depth inner
        match member? "len" json with
        | some (.num (.int length)) =>
          let length ← part (Shape.lengthOf length)
          wrap (.fixedArray · shape length)
        | _ => throw (.form "len")
      | "map" =>
        let shape ← readShape defs depth inner
        let key ← readKey json
        wrap (.map · key shape)
      | "newtype" =>
        let shape ← readShape defs depth inner
        let name ← textMember "name" json
        wrap (.newtype · name shape)
      | "unit" => return .unit (← textMember "name" json)
      | "generic" =>
        let name ← textMember "name" json
        wrap (.generic · name)
      | "raw" => return .raw ((member? "value" json).getD .null)
      | "struct" =>
        let name ← textMember "name" json
        declare json (.struct ⟨name, [], none, .unspecified⟩)
      | "tuple" => declare json (.tuple ⟨(textMember "name" json).toOption, []⟩)
      | "enum" =>
        let name ← textMember "name" json
        declare json (.enum ⟨name, [], .external, none⟩)
      | other => throw (.form other)

def readField (defs : Document) (depth : Nat) (json : Json) : Reader Field := do
  let shape ← readShape defs depth ((member? "shape" json).getD .null)
  part (Field.make (← textMember "name" json) shape (constraintsMember "c" json))

/-- What a struct has beyond its fields. A truth value may also be named like a shape. -/
def readExtra (defs : Document) (depth : Nat) : Option Json → Reader Extra
  | none | some .null => return .unspecified
  | some (.bool allowed) => return .allowed allowed
  | some json => return .ofShape (← readShape defs depth json)

def readVariant (defs : Document) (depth : Nat) (json : Json) : Reader Variant := do
  let name ← textMember "name" json
  let items ← listMember "items" json
  let payload ← match ← textMember "kind" json with
    | "unit" => part (Payload.nothing name items.length)
    | "newtype" => do
      let shapes ← items.mapM (readShape defs depth)
      part (Payload.single name shapes)
    | "tuple" => .tuple <$> items.mapM (readShape defs depth)
    | "struct" => .struct <$> items.mapM (readField defs depth)
    | other => throw (.form other)
  part (Variant.make name payload (constraintsMember "c" json))

def readContent (defs : Document) (depth : Nat) (json : Json) : Reader Declaration := do
  match ← textMember "k" json with
  | "struct" =>
    let fields ← (← listMember "fields" json).mapM (readField defs depth)
    let rule ← ruleMember "rename_all" json
    let extra ← readExtra defs depth (member? "extra" json)
    return .struct ⟨← textMember "name" json, fields, rule, extra⟩
  | "tuple" =>
    let elements ← (← listMember "items" json).mapM (readShape defs depth)
    return .tuple ⟨(textMember "name" json).toOption, elements⟩
  | "enum" =>
    let variants ← (← listMember "variants" json).mapM (readVariant defs depth)
    let tagging ← readTagging ((member? "tagging" json).getD .null)
    let rule ← ruleMember "rename_all" json
    return .enum ⟨← textMember "name" json, variants, tagging, rule⟩
  | other => throw (.form other)

/-- Reads the content of all declared types that were met, and of those met on the way. The second
argument bounds how many there are. -/
def readPending (defs : Document) (depth : Nat) : (count : Nat) → Reader Unit
  | 0 => return
  | count + 1 => do
    match (← get).pending with
    | [] => return
    | (index, json) :: pending =>
      modify fun state => { state with pending }
      let type ← readContent defs depth json
      modify fun state => { state with graph := state.graph.define index type }
      readPending defs depth count

/-- A shape together with the content of all declared types that it leads to. -/
def readWhole (defs : Document) (size : Nat) (json : Json) : Reader Shape := do
  let shape ← readShape defs size json
  readPending defs size size
  return shape

def readBindings (defs : Document) (size : Nat) (json : Option Json) :
    Reader (List (String × Shape)) :=
  match json with
  | some (.obj members) => members.mapM fun (name, described) =>
      return (name, ← readWhole defs size described)
  | _ => return []

mutual
def size : Json → Nat
  | .arr items => sizeOfItems items + 1
  | .obj members => sizeOfMembers members + 1
  | _ => 1

def sizeOfItems : List Json → Nat
  | [] => 0
  | item :: items => size item + sizeOfItems items

def sizeOfMembers : List (String × Json) → Nat
  | [] => 0
  | (_, value) :: members => size value + sizeOfMembers members
end

end ShapeSchema.Description
