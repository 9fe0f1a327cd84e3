import ShapeSchema.Json
import ShapeSchema.Yaml.Merge
import ShapeSchema.Yaml.Scalar

/-!
The values of YAML documents. Collections are filled in the order in which they are met, each after
all that were met before, and a node has one value however often it is met. Values of a document
with cycles have no end, so they are looked at as far as some depth.
-/

namespace ShapeSchema.Yaml

/-- A value as far as some depth. A mapping holds its pairs in order; where keys repeat, the last
pair counts. -/
inductive Value where
  | null
  | bool (value : Bool)
  | num (value : Number)
  | text (value : String)
  /-- Bytes, as the text they encode if they encode one. -/
  | bytes (text? : Option String)
  | mapping (pairs : List (Value × Value))
  /-- Any other value, and mappings below the depth. -/
  | other
deriving Inhabited

namespace Value

/-- The value of a key that is a text; where it repeats, the last one. -/
def lookup? (key : String) (pairs : List (Value × Value)) : Option Value :=
  pairs.foldl (fun found pair => match pair.1 with
    | .text name => if name = key then some pair.2 else found
    | _ => found) none

mutual
def ofJson : Json → Value
  | .null => null
  | .bool b => bool b
  | .num n => num n
  | .str content => text content
  | .arr _ => other
  | .obj members => mapping (ofMembers members)

def ofMembers : List (String × Json) → List (Value × Value)
  | [] => []
  | (key, value) :: members => (.text key, ofJson value) :: ofMembers members
end

def ofScalar : Scalar → Value
  | .null => null
  | .bool b => bool b
  | .num n => num n
  | .text content => text content
  | .bytes text? => bytes text?
  | .moment => other

end Value

/-- What a node stands for: a scalar, or a collection, which is the node itself. -/
inductive Meaning where
  | scalar (value : Scalar)
  | collection (id : NodeId)
deriving DecidableEq

def Meaning.isKey : Meaning → Bool
  | scalar _ => true
  | collection _ => false

/-- A document whose nodes are being given values. -/
structure Construction where
  graph : NodeGraph
  /-- The nodes met so far. -/
  meanings : List (NodeId × Meaning)
  /-- The collections that are still to be filled, the first one first. -/
  waiting : List NodeId
  /-- The mappings filled so far. -/
  filled : List (NodeId × List (Meaning × Meaning))

abbrev Construct := StateT Construction (Except Failure)

namespace Construct

/-- Gives up: a node does not fit its tag. -/
def fail {α : Type} : Construct α :=
  throw .malformed

/-- The text of a node: of a scalar its own, and of a mapping that of its default value. The first
argument bounds how many mappings there are inside each other. -/
def textOf (graph : NodeGraph) : (bound : Nat) → NodeId → Except Failure String
  | 0, _ => .error .outOfRange
  | bound + 1, id =>
    match graph.content id with
    | .scalar text => .ok text
    | .mapping pairs =>
      match pairs.find? (graph.tag ·.1 = .value) with
      | some (_, value) => textOf graph bound value
      | none => .error .malformed
    | .list _ => .error .malformed

/-- The scalar that a node stands for. A moment needs a text of its own. -/
def scalarOf (graph : NodeGraph) (id : NodeId) : Except Failure Scalar := do
  let text ← textOf graph (graph.size + 1) id
  match graph.tag id, graph.content id with
  | .timestamp, .mapping _ => throw .outOfRange
  | tag, _ => Scalar.ofText tag text

def collectionTags : List Tag := [.seq, .map, .set, .orderedMap, .pairs]

/-- The tags that no node can have a value under. -/
def emptyTags : List Tag := [.merge, .value, .other]

/-- What a node stands for. A collection that is met for the first time has to wait. -/
def visit (id : NodeId) : Construct Meaning := do
  let state ← get
  match state.meanings.lookup id with
  | some meaning => return meaning
  | none =>
    let tag := state.graph.tag id
    let waits := collectionTags.contains tag
    let meaning ← if waits then pure (Meaning.collection id)
      else if emptyTags.contains tag then fail
      else .scalar <$> scalarOf state.graph id
    set { state with
      meanings := (id, meaning) :: state.meanings
      waiting := if waits then state.waiting ++ [id] else state.waiting }
    return meaning

/-- The pairs of a mapping, after it has taken in what it merges. -/
def readMapping (id : NodeId) : Construct (List (Meaning × Meaning)) := do
  let state ← get
  let (pairs, graph) ← (Merging.complete id).run state.graph
  set { state with graph }
  pairs.mapM fun (key, value) => do
    let key ← visit key
    if !key.isKey then fail
    return (key, ← visit value)

/-- Gives values to the parts of a collection. The items of ordered pairs are mappings of one pair,
which take in nothing. -/
def fill (id : NodeId) : Construct Unit := do
  let graph := (← get).graph
  match graph.tag id, graph.content id with
  | .seq, .list items => for item in items do let _ ← visit item
  | .map, .mapping _ =>
    let pairs ← readMapping id
    modify fun state => { state with filled := (id, pairs) :: state.filled }
  | .set, .mapping _ => let _ ← readMapping id
  | .orderedMap, .list items | .pairs, .list items =>
    for item in items do
      match (← get).graph.content item with
      | .mapping [(key, value)] =>
        let _ ← visit key
        let _ ← visit value
      | _ => fail
  | _, _ => fail

/-- Fills all collections that wait. The argument bounds how many there are. -/
def fillAll : (bound : Nat) → Construct Unit
  | 0 => return
  | bound + 1 => do
    match (← get).waiting with
    | [] => return
    | id :: waiting =>
      modify fun state => { state with waiting }
      fill id
      fillAll bound

/-- The value of a meaning as far as a depth. -/
def unfold (filled : List (NodeId × List (Meaning × Meaning))) : (depth : Nat) → Meaning → Value
  | _, .scalar value => .ofScalar value
  | 0, .collection _ => .other
  | depth + 1, .collection id =>
    match filled.lookup id with
    | some pairs =>
      .mapping (pairs.map fun (key, value) => (unfold filled depth key, unfold filled depth value))
    | none => .other

end Construct

/-- The value of a text as far as a depth; a text that holds nothing stands for null. -/
def Value.read (depth : Nat) (text : String) : Except Failure Value := do
  match ← composeText text with
  | (none, _) => return null
  | (some root, graph) =>
    let build : Construct Meaning := do
      let meaning ← Construct.visit root
      Construct.fillAll graph.size
      return meaning
    let (meaning, state) ← build.run ⟨graph, [], [], []⟩
    return Construct.unfold state.filled depth meaning

end ShapeSchema.Yaml
