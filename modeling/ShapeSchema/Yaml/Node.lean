import ShapeSchema.Yaml.Lexer
import ShapeSchema.Yaml.Tag

/-!
The nodes of a YAML document: scalars, lists and mappings with their tags. An anchor names a node
and a reference is that very node, which may still be open then, so the nodes form a graph that may
have cycles. A text gives its one document, or none if it holds nothing.
-/

namespace ShapeSchema.Yaml

/-- A node, by its position among all nodes. -/
abbrev NodeId := Nat

inductive Content where
  | scalar (text : String)
  | list (items : List NodeId)
  | mapping (pairs : List (NodeId × NodeId))
deriving DecidableEq

structure Node where
  tag : Tag
  content : Content
deriving DecidableEq

abbrev NodeGraph := Array Node

namespace NodeGraph

def content (graph : NodeGraph) (id : NodeId) : Content :=
  (graph[id]?.map (·.content)).getD (.scalar "")

def tag (graph : NodeGraph) (id : NodeId) : Tag :=
  (graph[id]?.map (·.tag)).getD .other

def setContent (graph : NodeGraph) (id : NodeId) (content : Content) : NodeGraph :=
  graph.modify id ({ · with content })

def setTag (graph : NodeGraph) (id : NodeId) (tag : Tag) : NodeGraph :=
  graph.modify id ({ · with tag })

end NodeGraph

/-- The expansions of tag handles. -/
abbrev Handles := List (String × String)

def standardHandles : Handles := [("!", "!"), ("!!", Tag.standardStart)]

/-- A document that is being read. -/
structure Composition where
  tokens : List Token
  handles : Handles
  graph : NodeGraph
  anchors : List (String × NodeId)

abbrev Compose := StateT Composition (Except Failure)

namespace Compose

/-- Gives up: the text is not one document. -/
def fail {α : Type} : Compose α :=
  throw .malformed

def peek : Compose (Option Token) := do
  match (← get).tokens with
  | .broken failure :: _ => throw failure
  | token :: _ => return some token
  | [] => return none

def advance : Compose Unit :=
  modify fun state => { state with tokens := state.tokens.tail }

def accept (token : Token) : Compose Bool := do
  if (← peek) == some token then
    advance
    return true
  return false

def atAny (tokens : List Token) : Compose Bool := do
  return (← peek).any tokens.contains

/-- Adds a node, under its anchor if it has one. An anchor is given once. -/
def add (anchor? : Option String) (node : Node) : Compose NodeId := do
  let state ← get
  let id := state.graph.size
  let anchors ← match anchor? with
    | none => pure state.anchors
    | some name =>
      if (state.anchors.lookup name).isSome then fail else pure ((name, id) :: state.anchors)
  set { state with graph := state.graph.push node, anchors }
  return id

def addEmpty : Compose NodeId :=
  add none ⟨.null, .scalar ""⟩

/-- A collection, which its parts can refer to. -/
def collect (anchor? : Option String) (tag : Tag) (empty : Content) (read : Compose Content) :
    Compose NodeId := do
  let id ← add anchor? ⟨tag, empty⟩
  let content ← read
  modify fun state => { state with graph := NodeGraph.setContent state.graph id content }
  return id

def expandTag (handle? : Option String) (suffix : String) : Compose String := do
  match handle? with
  | none => return suffix
  | some handle =>
    match (← get).handles.lookup handle with
    | some expansion => return expansion ++ suffix
    | none => fail

def readAnchor : Compose (Option String) := do
  match ← peek with
  | some (.anchor name) =>
    advance
    return some name
  | _ => return none

def readTag : Compose (Option (Option String × String)) := do
  match ← peek with
  | some (.tag handle? suffix) =>
    advance
    return some (handle?, suffix)
  | _ => return none

/-- The anchor and the name of the tag in front of a node, in either order. -/
def readProperties : Compose (Option String × Option String) := do
  let early? ← readAnchor
  let tag? ← readTag
  let anchor? ← match early? with
    | none => if tag?.isSome then readAnchor else pure none
    | anchor? => pure anchor?
  match tag? with
  | some (handle?, suffix) => return (anchor?, some (← expandTag handle? suffix))
  | none => return (anchor?, none)

/-- The tag of a scalar with the name of a tag in front of it. Without such a name, or where the
name asks for nothing special, the text of a plain scalar says what it is, and any other text is a
text; that it asks for nothing makes every scalar plain. -/
def scalarTag (name? : Option String) (text : String) (plain : Bool) : Tag :=
  match name? with
  | none => if plain then .ofPlain text else .str
  | some name => if name = "!" then .ofPlain text else .ofName name

/-- The tag of a collection with the name of a tag in front of it. -/
def collectionTag (name? : Option String) (usual : Tag) : Tag :=
  match name? with
  | none => usual
  | some name => if name = "!" then usual else .ofName name

/-- The tokens that go on with a block mapping or end it. -/
def blockParts : List Token := [.key, .value, .blockEnd]

/-- The tokens that go on with a list in a block or end it. -/
def blockItems : List Token := [.item, .blockEnd]

/-- Where a node is read: in a flow collection, in a block, or as a part of a block mapping, where
the items of a list may stand at the column of the key. -/
inductive Place where
  | flow | block | part
deriving DecidableEq

mutual
def node (place : Place) : Nat → Compose NodeId
  | 0 => fail
  | fuel + 1 => do
    if let some (.reference name) := ← peek then
      advance
      match (← get).anchors.lookup name with
      | some id => return id
      | none => fail
    else
      let (anchor?, name?) ← readProperties
      let list := collect anchor? (collectionTag name? .seq) (.list [])
      let mapping := collect anchor? (collectionTag name? .map) (.mapping [])
      match place, ← peek with
      | _, some (.scalar text plain) =>
        advance
        add anchor? ⟨scalarTag name? text plain, .scalar text⟩
      | _, some .listOpen =>
        advance
        list (.list <$> flowItems true fuel)
      | _, some .mappingOpen =>
        advance
        mapping (.mapping <$> flowPairs true fuel)
      | .part, some .item => list (.list <$> looseItems fuel)
      | .block, some .blockListStart | .part, some .blockListStart =>
        advance
        list (.list <$> items fuel)
      | .block, some .blockMappingStart | .part, some .blockMappingStart =>
        advance
        mapping (.mapping <$> pairs fuel)
      | _, _ =>
        if anchor?.isNone && name?.isNone then fail
        else add anchor? ⟨scalarTag name? "" true, .scalar ""⟩

def items : Nat → Compose (List NodeId)
  | 0 => fail
  | fuel + 1 => do
    if ← accept .item then
      let item ← if ← atAny blockItems then addEmpty else node .block fuel
      return item :: (← items fuel)
    else if ← accept .blockEnd then return []
    else fail

/-- The items of a list that stands at the column of its key. -/
def looseItems : Nat → Compose (List NodeId)
  | 0 => fail
  | fuel + 1 => do
    if ← accept .item then
      let item ← if ← atAny (.item :: blockParts) then addEmpty else node .block fuel
      return item :: (← looseItems fuel)
    else return []

def pairs : Nat → Compose (List (NodeId × NodeId))
  | 0 => fail
  | fuel + 1 => do
    if ← accept .key then
      let key ← if ← atAny blockParts then addEmpty else node .part fuel
      let value ← if ← accept .value then
          if ← atAny blockParts then addEmpty else node .part fuel
        else addEmpty
      return (key, value) :: (← pairs fuel)
    else if ← accept .blockEnd then return []
    else fail

/-- The items of a flow list up to its end. A pair among them is a mapping of its own. -/
def flowItems (first : Bool) : Nat → Compose (List NodeId)
  | 0 => fail
  | fuel + 1 => do
    if ← accept .listClose then return []
    if !first then
      if !(← accept .comma) then fail
      if ← accept .listClose then return []
    let item ← if ← accept .key then
        collect none .map (.mapping []) do return .mapping [← flowPair .listClose fuel]
      else node .flow fuel
    return item :: (← flowItems false fuel)

def flowPairs (first : Bool) : Nat → Compose (List (NodeId × NodeId))
  | 0 => fail
  | fuel + 1 => do
    if ← accept .mappingClose then return []
    if !first then
      if !(← accept .comma) then fail
      if ← accept .mappingClose then return []
    let pair ← if ← accept .key then flowPair .mappingClose fuel
      else do
        let key ← node .flow fuel
        pure (key, ← addEmpty)
    return pair :: (← flowPairs false fuel)

/-- A key and its value in a flow collection; either may be left out. -/
def flowPair (close : Token) : Nat → Compose (NodeId × NodeId)
  | 0 => fail
  | fuel + 1 => do
    let key ← if ← atAny [.value, .comma, close] then addEmpty else node .flow fuel
    if ← accept .value then
      let value ← if ← atAny [.comma, close] then addEmpty else node .flow fuel
      return (key, value)
    else return (key, ← addEmpty)
end

/-- The handles that the directives in front of a document leave. -/
def readDirectives (versioned : Bool) (handles : Handles) : Nat → Compose Handles
  | 0 => fail
  | fuel + 1 => do
    match ← peek with
    | some (.directive content) =>
      advance
      match content with
      | .version major _ =>
        if versioned || major ≠ 1 then fail else readDirectives true handles fuel
      | .handle name expansion =>
        if (handles.lookup name).isSome then fail
        else readDirectives versioned ((name, expansion) :: handles) fuel
      | .other => readDirectives versioned handles fuel
    | _ => return handles ++ standardHandles

/-- Passes the marks at the end of a document, which nothing may follow. -/
def readEnd : Nat → Compose Unit
  | 0 => fail
  | fuel + 1 => do
    if ← accept .documentEnd then readEnd fuel
    else if (← peek).isSome then fail

/-- The root of the one document, none if the text holds nothing. -/
def document (fuel : Nat) : Compose (Option NodeId) := do
  let root ← match ← peek with
    | none => return none
    | some (.directive _) | some .documentStart =>
      let handles ← readDirectives false [] fuel
      if !(← accept .documentStart) then fail
      modify fun state => { state with handles }
      match ← peek with
      | none | some (.directive _) | some .documentStart | some .documentEnd => addEmpty
      | some _ => node .block fuel
    | some _ => node .block fuel
  readEnd fuel
  return some root

end Compose

/-- The nodes of a text and the root among them, if it holds anything. -/
def composeText (text : String) : Except Failure (Option NodeId × NodeGraph) := do
  let tokens := tokens text
  let (root?, state) ← (Compose.document (3 * tokens.length + 3)).run
    ⟨tokens, standardHandles, #[], []⟩
  return (root?, state.graph)

end ShapeSchema.Yaml
