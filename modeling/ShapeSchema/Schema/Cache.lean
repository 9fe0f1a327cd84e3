import ShapeSchema.Schema.Derivation

/-!
Derived schemas kept for reuse. A kept schema answers for its node wherever the plain derivation
would give the same: two rules see to it.

* A schema is kept only if nothing below its node was cut at a node that is expanded above it. The
  frames of the nodes being expanded are marked where this happens.
* A kept schema is used only where none of the nodes that its derivation visited is being expanded.
-/

namespace ShapeSchema

/-- A kept schema and the nominal nodes that its derivation visited. -/
structure CacheEntry where
  schema : Document
  visited : List Shape

/-- The kept schemas by node, and how many lookups found one or none. -/
structure Cache where
  entries : List (Shape × CacheEntry)
  hits : Nat
  misses : Nat
deriving Inhabited

namespace Cache

def empty : Cache := ⟨[], 0, 0⟩

def size (cache : Cache) : Nat :=
  cache.entries.length

def disjoint (visited active : List Shape) : Bool :=
  visited.all (· ∉ active)

/-- The usable entry of a node, given the nodes that are being expanded. -/
def find? (cache : Cache) (active : List Shape) (node : Shape) : Option CacheEntry :=
  (cache.entries.lookup node).filter (disjoint ·.visited active)

/-- The usable entry of a node, and the cache with the lookup counted. -/
def fetch (cache : Cache) (active : List Shape) (node : Shape) : Option CacheEntry × Cache :=
  match cache.find? active node with
  | some entry => (some entry, { cache with hits := cache.hits + 1 })
  | none => (none, { cache with misses := cache.misses + 1 })

def keep (cache : Cache) (node : Shape) (entry : CacheEntry) : Cache :=
  { cache with entries := (node, entry) :: cache.entries.filter (·.1 ≠ node) }

/-- The cache without the entries of nodes that are gone. -/
def retain (cache : Cache) (alive : Shape → Bool) : Cache :=
  { cache with entries := cache.entries.filter (alive ·.1) }

end Cache

structure Frame where
  node : Shape
  /-- Whether its expansion was cut short by a node that is expanded around it. -/
  tainted : Bool
  /-- The nominal nodes that its expansion visited so far. -/
  visited : List Shape

namespace Frame

def opened (node : Shape) : Frame := ⟨node, false, [node]⟩

def visit (frame : Frame) (nodes : List Shape) : Frame :=
  { frame with visited := nodes.foldr List.insert frame.visited }

def taint (frame : Frame) : Frame :=
  { frame with tainted := true }

end Frame

/-- The state of a derivation: its cache, if it has one, the frames of the nodes being expanded,
innermost first, and the position of each of these nodes, counted from the outermost. -/
structure TrackingState where
  cache? : Option Cache
  stack : List Frame
  positions : List (Shape × Nat)

/-- The frames after the innermost one visited further nodes. -/
def visitTop (nodes : List Shape) : List Frame → List Frame
  | [] => []
  | frame :: rest => frame.visit nodes :: rest

/-- The frames after those above a position were cut short. -/
def taintAbove (position : Nat) : List Frame → List Frame
  | [] => []
  | frame :: rest =>
    if position < rest.length then frame.taint :: taintAbove position rest else frame :: rest

namespace TrackingState

/-- The usable entry of a node, if there is a cache with one. The lookup is counted. -/
def fetch (state : TrackingState) (node : Shape) : Option CacheEntry × TrackingState :=
  match state.cache? with
  | some cache =>
    let (found, cache) := cache.fetch (state.positions.map Prod.fst) node
    (found, { state with cache? := some cache })
  | none => (none, state)

/-- Counts nodes as visited by the innermost expansion, if there is one. -/
def visit (state : TrackingState) (nodes : List Shape) : TrackingState :=
  { state with stack := visitTop nodes state.stack }

def enter (state : TrackingState) (node : Shape) : TrackingState :=
  { state with
    stack := .opened node :: state.stack
    positions := (node, state.stack.length) :: state.positions }

/-- Ends the expansion of a node and gives its frame. -/
def leave (state : TrackingState) (node : Shape) : Frame × TrackingState :=
  (state.stack.headD (.opened node),
    { state with
      stack := state.stack.tail
      positions := state.positions.filter (·.1 ≠ node) })

/-- Keeps the schema of a node that was not cut short. -/
def keep (state : TrackingState) (frame : Frame) (schema : Document) : TrackingState :=
  if frame.tainted then state
  else { state with cache? := state.cache?.map (·.keep frame.node ⟨schema, frame.visited⟩) }

/-- Counts a node that is cut as visited. The nodes expanded inside it are cut short. -/
def cut (state : TrackingState) (node : Shape) : TrackingState :=
  match state.positions.lookup node with
  | some position => { state with stack := visitTop [node] (taintAbove position state.stack) }
  | none => state

end TrackingState

/-- Derivations that keep track of the nodes being expanded. An error does not undo what was counted
and kept before it. -/
abbrev Tracking := ExceptT SchemaError (StateM TrackingState)

namespace Tracking

/-- Uses the entry of a node, or expands the node. The expansion ends even where it fails. -/
def expand (node : Shape) (body : Tracking Document) : Tracking Document := do
  match ← modifyGet (·.fetch node) with
  | some entry =>
    modify (·.visit entry.visited)
    return entry.schema
  | none =>
    modify (·.enter node)
    let schema ←
      try body
      catch error =>
        let _ ← modifyGet (·.leave node)
        throw error
    let frame ← modifyGet (·.leave node)
    modify fun state => (state.visit frame.visited).keep frame schema
    return schema

end Tracking

def Policy.tracking : Policy Tracking where
  expand := Tracking.expand
  cut node := modify (·.cut node)

/-- The schema of a shape with constraints, derived with a cache or without one, and the cache
afterwards. -/
def Context.deriveWith (context : Context) (cache? : Option Cache) (shape : Shape)
    (c : Constraints) : Except SchemaError Document × Option Cache :=
  let (result, state) := (context.root Policy.tracking shape c).run.run ⟨cache?, [], []⟩
  (result, state.cache?)

end ShapeSchema
