import ShapeSchema.Shape

/-!
Replacing parameters in a shape graph. Declared types are always copied, so that the given ones stay
as they are; a wrapper is built anew only if something below it changed. A node that is met twice is
replaced by one and the same node, except that a named wrapper which is met inside itself has no
replacement yet at that point and gets another one there.
-/

namespace ShapeSchema

abbrev Bindings := List (String × Shape)

namespace Substitution

/-- The graph with the copies made so far, and the replacement of each node met so far; the latest
one counts. -/
structure State where
  graph : Graph
  replaced : List (Shape × Shape)

abbrev Step := StateM State

def record (node replacement : Shape) : Step Unit :=
  modify fun state => { state with replaced := (node, replacement) :: state.replaced }

/-- The replacement of a node that was met before, else a new one, which is recorded. -/
def once (node : Shape) (replace : Step Shape) : Step Shape := do
  match (← get).replaced.lookup node with
  | some replacement => return replacement
  | none =>
    let replacement ← replace
    record node replacement
    return replacement

def freshLabel : Step Nat :=
  modifyGet fun state =>
    let (label, graph) := state.graph.freshLabel
    (label, { state with graph })

/-- A wrapper whose content was replaced: itself if the content is the same node, else a new one. -/
def rewrap (node inner : Shape) (wrap : Nat → Shape → Shape) (replacement : Shape) : Step Shape :=
  if replacement = inner then return node
  else return wrap (← freshLabel) replacement

section Parts

variable (visit : Shape → Step Shape)

def visitField (field : Field) : Step Field := do
  return { field with shape := ← visit field.shape }

def visitExtra : Extra → Step Extra
  | .values shape => return .ofShape (← visit shape)
  | extra => return extra

def visitPayload : Payload → Step Payload
  | .unit => return .unit
  | .newtype shape => return .newtype (← visit shape)
  | .tuple elements => return .tuple (← elements.mapM visit)
  | .struct fields => return .struct (← fields.mapM (visitField visit))

def visitVariant (variant : Variant) : Step Variant := do
  return { variant with payload := ← visitPayload visit variant.payload }

def visitDeclaration : Declaration → Step Declaration
  | .struct type => do
    let fields ← type.fields.mapM (visitField visit)
    return .struct { type with fields, extra := ← visitExtra visit type.extra }
  | .tuple type => return .tuple { type with elements := ← type.elements.mapM visit }
  | .enum type => return .enum { type with variants := ← type.variants.mapM (visitVariant visit) }

/-- Copies a declared type. The copy is recorded before its content is replaced, so that the content
can refer to it. -/
def copyDeclared (index : Nat) (type : Declaration) : Step Shape := do
  let copy ← modifyGet fun state =>
    let (copy, graph) := state.graph.declare type
    (copy, { state with graph })
  record (.declared index) (.declared copy)
  let content ← visitDeclaration visit type
  modify fun state => { state with graph := state.graph.define copy content }
  return .declared copy

end Parts

/-- The replacement of a node, where declared types are copied by a given step. A binding takes the
place of its parameter as it is. -/
def visitWith (bindings : Bindings) (copy : Nat → Declaration → Step Shape) : Shape → Step Shape
  | node@(.primitive _) | node@.document | node@.objectId | node@(.unit _) | node@(.raw _) =>
    return node
  | node@(.generic _ name) => return (bindings.lookup name).getD node
  | node@(.optional _ inner) =>
    once node do rewrap node inner .optional (← visitWith bindings copy inner)
  | node@(.array _ element) =>
    once node do rewrap node element .array (← visitWith bindings copy element)
  | node@(.set _ element) =>
    once node do rewrap node element .set (← visitWith bindings copy element)
  | node@(.fixedArray _ element length) =>
    once node do rewrap node element (.fixedArray · · length) (← visitWith bindings copy element)
  | node@(.map _ key value) =>
    once node do rewrap node value (.map · key ·) (← visitWith bindings copy value)
  | node@(.newtype _ name inner) =>
    once node do rewrap node inner (.newtype · name ·) (← visitWith bindings copy inner)
  | node@(.declared index) =>
    once node do
      match (← get).graph.declaration? index with
      | some type => copy index type
      | none => return node

/-- The replacement of a node, with a bound on how many declared types are copied inside each other
and a step that stands for the copies beyond it. -/
def visitBelow (bindings : Bindings) (beyond : Nat → Declaration → Step Shape) :
    (depth : Nat) → Shape → Step Shape
  | 0 => visitWith bindings beyond
  | depth + 1 => visitWith bindings (copyDeclared (visitBelow bindings beyond depth))

/-- The replacement of a node. The depth bounds how many declared types are copied inside each
other; their number is enough, since each is copied once. -/
def visit (bindings : Bindings) (depth : Nat) : Shape → Step Shape :=
  visitBelow bindings (fun index _ => return .declared index) depth

end Substitution

/-- The shape with its parameters replaced, and the graph with the copies that this needed. Without
bindings nothing is copied. -/
def Graph.substitute (graph : Graph) (bindings : Bindings) (shape : Shape) : Shape × Graph :=
  if bindings.isEmpty then (shape, graph)
  else
    let (result, state) :=
      (Substitution.visit bindings graph.declarations.size shape).run ⟨graph, []⟩
    (result, state.graph)

end ShapeSchema
