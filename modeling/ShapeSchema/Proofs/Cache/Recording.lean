import ShapeSchema.Proofs.Derivation.Level
import ShapeSchema.Proofs.Shape.Finite

/-!
Derivations that write down what happens to their state. They decide by the positions alone whether
a node is being expanded, and they call themselves for the parts of a shape: nothing but a bound on
the depth of the calls makes them end. The termination proof shows that the bound does not matter.
-/

namespace ShapeSchema

/-- What a derivation left behind: its state, every state that it went through, and the states
before and after each of its calls. -/
structure Record where
  state : TrackingState
  moments : List TrackingState
  calls : List (TrackingState × TrackingState)

namespace Record

def start (cache? : Option Cache) : Record := ⟨⟨cache?, [], []⟩, [], []⟩

def move (record : Record) (state : TrackingState) : Record :=
  { record with state, moments := state :: record.moments }

@[simp] theorem state_move (record : Record) (state : TrackingState) :
    (record.move state).state = state := rfl

def close (record : Record) (before : TrackingState) : Record :=
  { record with calls := (before, record.state) :: record.calls }

end Record

/-- Derivations with a record. They have no result at all if their calls are nested too deeply. -/
abbrev Recording := ExceptT SchemaError (StateT Record Option)

namespace Recording

def change {α : Type} (f : TrackingState → α × TrackingState) : Recording α :=
  ExceptT.mk fun record =>
    let (a, state) := f record.state
    some (.ok a, record.move state)

/-- A call, whose begin and end are written down, also if it ends with an error. -/
def call {α : Type} (body : Recording α) : Recording α :=
  ExceptT.mk fun record => do
    let (result, next) ← body.run.run record
    return (result, next.close record.state)

/-- No result, since calls are nested too deeply. -/
def exhausted {α : Type} : Recording α :=
  ExceptT.mk fun _ => none

/-- Uses the entry of a node, or expands the node. The expansion ends even where it fails. -/
def expand (node : Shape) (body : Recording Document) : Recording Document := do
  match ← change (·.fetch node) with
  | some entry =>
    change fun state => ((), state.visit entry.visited)
    return entry.schema
  | none =>
    change fun state => ((), state.enter node)
    let schema ←
      try body
      catch error =>
        let _ ← change (·.leave node)
        throw error
    let frame ← change (·.leave node)
    change fun state => ((), state.visit frame.visited)
    change fun state => ((), state.keep frame schema)
    return schema

/-- A nominal node is cut if it has a position, and expanded otherwise. What refers to no declared
type has nothing to expand. -/
def nominal (context : Context) (node : Shape) (body : Recording Document) :
    Recording Document := do
  match ← change fun state => (state.positions.lookup node, state) with
  | some _ =>
    change fun state => ((), state.cut node)
    return context.cutSchema node
  | none => if context.graph.dangles node then body else expand node body

end Recording

/-- The derivation of a shape by calls that are nested at most so deeply. -/
def Context.perform (context : Context) : (depth : Nat) → Shape → Location → Recording Document
  | 0, _, _ => Recording.exhausted
  | depth + 1, shape, place =>
    Recording.call
      (if shape.isNominal then
        Recording.nominal context shape (context.level (context.perform depth) shape place)
      else context.level (context.perform depth) shape place)

def Context.performRoot (context : Context) (depth : Nat) (cache? : Option Cache) (root : Shape)
    (c : Constraints) : Option (Except SchemaError Document × Record) :=
  (context.constrained (context.perform depth) root c
    (.start (context.graph.describe root))).run.run (.start cache?)

/-- Whether the frames of a state are in order, in a derivation that started at a root: no node is
expanded inside itself, the positions are those of the frames from the outermost on, and there are
no more frames than nominal nodes to expand. -/
structure TrackingState.IsDisciplined (graph : Graph) (root : Shape) (state : TrackingState) :
    Prop where
  nodup : (state.stack.map Frame.node).Nodup
  positions : ∀ node position, state.positions.lookup node = some position ↔
    (state.stack.map Frame.node).reverse[position]? = some node
  nesting : state.stack.length ≤ (graph.nominalsFrom root).ncard

/-- Whether one state has the same nodes being expanded, at the same positions, as another one. -/
def TrackingState.SameExpansions (state other : TrackingState) : Prop :=
  other.stack.map Frame.node = state.stack.map Frame.node ∧ other.positions = state.positions

end ShapeSchema
