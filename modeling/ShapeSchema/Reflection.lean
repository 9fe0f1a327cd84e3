import ShapeSchema.Reflection.Class
import ShapeSchema.Settings
import ShapeSchema.Shape.Substitution

/-!
The shape of a type expression. A class is entered before its fields are reflected, so that it can
refer to itself. A class with type parameters is reflected once, with its parameters in place, and
an instance of it is a copy in which they are replaced; a class that refers to an instance of itself
is copied there with the fields that it has so far.
-/

namespace ShapeSchema

/-- Shapes that are given for type expressions, the latest first. -/
abbrev Registry := List (TypeExpr × Shape)

namespace Registry

def register (expr : TypeExpr) (shape : Shape) (registry : Registry) : Except Defect Registry :=
  match expr.unhashable? with
  | some type => .error (.unhashable type)
  | none => .ok ((expr, shape) :: registry)

/-- The shape that is given for a type expression. Null in place of a shape takes it away. -/
def find? (expr : TypeExpr) (registry : Registry) : Option Shape :=
  match List.find? (fun (other, _) => expr.same other) registry with
  | some (_, .raw .null) | none => none
  | some (_, shape) => some shape

end Registry

/-- What reflection knows beforehand. -/
structure ReflectionContext where
  classes : ClassTable
  registry : Registry
  intKind : IntKind

/-- The graph so far, the shapes of the classes and instances met so far, and what has been
evaluated. -/
structure ReflectionState where
  graph : Graph
  known : List (TypeExpr × Shape)
  evaluated : Evaluated

/-- Why an expression that cannot be evaluated has no shape; the names in it belong to a class. -/
def EvaluationError.defect (owner : String) : EvaluationError → Defect
  | undefinedName name => .unresolvedAnnotations owner name
  | unhashable type => .unhashable type

abbrev Reflect := StateT ReflectionState (Except SchemaError)

namespace Reflect

/-- Gives up; the place is filled in by the field around. -/
def fail {α : Type} (defect : Defect) : Reflect α :=
  throw ⟨defect, .nowhere⟩

def lookup (expr : TypeExpr) (known : List (TypeExpr × Shape)) : Option Shape :=
  (known.find? fun (other, _) => expr.same other).map (·.2)

def record (expr : TypeExpr) (shape : Shape) : Reflect Unit :=
  modify fun state => { state with known := (expr, shape) :: state.known }

def wrap (make : Nat → Shape) : Reflect Shape :=
  modifyGet fun state =>
    let (label, graph) := state.graph.freshLabel
    (make label, { state with graph })

def declare (type : Declaration) : Reflect Nat :=
  modifyGet fun state =>
    let (index, graph) := state.graph.declare type
    (index, { state with graph })

def define (index : Nat) (type : Declaration) : Reflect Unit :=
  modify fun state => { state with graph := state.graph.define index type }

def substitute (bindings : Bindings) (shape : Shape) : Reflect Shape :=
  modifyGet fun state =>
    let (result, graph) := state.graph.substitute bindings shape
    (result, { state with graph })

def scalar? (intKind : IntKind) : StandardClass → Option PrimitiveKind
  | .int => some intKind.kind
  | .bool => some .bool
  | .float => some .f64
  | .str => some .string
  | .bytes | .bytearray => some .binary
  | .uuid => some .uuid
  | .datetime => some .datetime
  | _ => none

/-- The refinements of a type expression applied to what it refines. A kind replaces a scalar. -/
def refine (expr : TypeExpr) (shape : Shape) (c : Constraints) :
    List Refinement → Reflect (Shape × Constraints)
  | [] => return (shape, c)
  | .kind kind :: rest =>
    match shape with
    | .primitive _ => refine expr (.primitive kind) c rest
    | _ => fail (.kindOnNonPrimitive kind expr.name)
  | refinement :: rest => refine expr shape (c.merge refinement.addedConstraints) rest

/-- The shape of what stands where no bounds may be. -/
def withoutBounds (expr : TypeExpr) (found : Shape × Constraints) : Reflect Shape :=
  if found.2.hasBounds then fail (.nestedBounds expr.name) else return found.1

/-- The name of a variant at a position of a union: that of its type expression, with the position
behind it if the name is taken. -/
def variantName (expr : TypeExpr) (position : Nat) (used : List String) : String :=
  if expr.name ∈ used then expr.name ++ toString position else expr.name

def makeVariant (name : String) (shape : Shape) : Reflect Variant :=
  match Variant.make name (.newtype shape) .none with
  | .ok variant => return variant
  | .error _ => fail (.notReflectable name)

/-- Gives up on a type expression that cannot be looked up among others. -/
def requireHashable (expr : TypeExpr) : Reflect Unit :=
  match expr.unhashable? with
  | some type => fail (.unhashable type)
  | none => return

/-- The shape that is given or known for a type expression, else one that is found anew. -/
def remember (context : ReflectionContext) (expr : TypeExpr)
    (find : Reflect (Shape × Constraints)) : Reflect (Shape × Constraints) := do
  match context.registry.find? expr, lookup expr (← get).known with
  | some shape, _ | none, some shape => return (shape, .none)
  | none, none => find

def evaluateFields (context : ReflectionContext) (type : ClassDeclaration) :
    Reflect (List (ClassField × TypeExpr)) := do
  let state ← get
  match (context.classes.evaluateFields type).run state.evaluated with
  | .ok (fields, evaluated) =>
    set { state with evaluated }
    return fields
  | .error error => fail (error.defect type.name)

/-- The value of an annotation without the refinements that belong to the field, and those. The
outermost ones of a model field do. -/
def splitRefinements (form : ClassForm) (expr : TypeExpr) : TypeExpr × List Refinement :=
  match form, expr with
  | .model _, .annotated base refinements => (base, refinements)
  | _, expr => (expr, [])

def enterField (index : Nat) (field : Field) : Reflect Unit :=
  modify fun state =>
    { state with graph := match state.graph.declaration? index with
        | some (.struct type) =>
          state.graph.define index (.struct { type with fields := type.fields ++ [field] })
        | _ => state.graph }

/-- Adds the field of a class to a struct, unless it is left out. A defect of the type that has no
place is at the field. -/
def addField (type : ClassDeclaration) (index : Nat)
    (resolve : TypeExpr → Reflect (Shape × Constraints)) (field : ClassField) (expr : TypeExpr) :
    Reflect Unit := do
  let (expr, beside) := splitRefinements type.form expr
  let descriptions := Refinement.descriptions beside ++ [field.description]
  if !FieldDescription.excludes descriptions then
    let (shape, c) ← tryCatch (resolve expr.asClass) fun error =>
      if error.location.text.isEmpty ∧ error.defect.kind ≠ .wrongType then
        throw { error with location := (Location.start type.name).push (.member field.name) }
      else throw error
    let c := (c.merge (Refinement.allConstraints beside)).merge field.constraints
    let c := match FieldDescription.storedKey? field.name descriptions with
      | some key => { c with rename := some key }
      | none => c
    enterField index ⟨field.name, shape, c, field.name_ne_empty⟩

/-- Enters a class as a struct and adds its fields. -/
def openClass (context : ReflectionContext) (type : ClassDeclaration)
    (resolve : TypeExpr → Reflect (Shape × Constraints)) : Reflect Shape := do
  let extra : Extra := match type.form with
    | .model _ => if context.classes.allowsExtra type then .allowed true else .unspecified
    | _ => .unspecified
  let index ← declare (.struct ⟨type.name, [], none, extra⟩)
  record (.named (.declared type.name)) (.declared index)
  for (field, expr) in ← evaluateFields context type do
    addField type index resolve field expr
  return .declared index

section Resolving

variable (context : ReflectionContext) (copy : Bindings → Shape → Reflect Shape)
  (enter : ClassDeclaration → Reflect Shape)

def resolveNamed (head : TypeHead) : Reflect Shape :=
  match head with
  | .standard .noneType => fail .bareNone
  | .standard .dict | .synonym .dict => return .document
  | .synonym .tuple => return .declared (← declare (.tuple ⟨none, []⟩))
  | .synonym container => fail (.elementCount container.name)
  | .standard container =>
    match scalar? context.intKind container with
    | some kind => return .primitive kind
    | none => fail (.notReflectable container.name)
  | .declared name =>
    if name = "ObjectId" then return .objectId
    else
      match context.classes.find? name with
      | some type =>
        match type.form with
        | .plain => fail (.notReflectable (TypeExpr.named head).name)
        | .record _ | .model _ => enter type
      | none => fail (.notReflectable (TypeExpr.named head).name)

mutual
/-- The shape of a type expression and the constraints that belong to the field it stands in, where
instances are copied and classes entered by given steps. -/
def resolveWith (expr : TypeExpr) : Reflect (Shape × Constraints) :=
  match expr with
  | .annotated base refinements => do
    let (shape, c) ← resolveWith base
    refine (.annotated base refinements) shape c refinements
  | .union style members =>
    remember context (.union style members) do
      let nullable := members.any TypeExpr.isNoneType
      let (inner, c) ← match found : members.filter (!·.isNoneType) with
        | [member] =>
          have : sizeOf member < sizeOf members :=
            List.sizeOf_lt_of_mem (List.mem_filter.mp (found ▸ List.mem_cons_self)).1
          resolveWith member
        | _ => do
          let variants ← resolveVariants members 0 []
          let name := (TypeExpr.union style members).name
          let index ← declare (.enum ⟨name, variants, .untagged, none⟩)
          pure (Shape.declared index, Constraints.none)
      if nullable then return (← wrap (.optional · inner), c) else return (inner, c)
  | .named head =>
    remember context (.named head) do return (← resolveNamed context enter head, .none)
  | .applied head arguments =>
    remember context (.applied head arguments) do
      requireHashable (.applied head arguments)
      return (← resolveApplied head arguments, .none)
  | .parameter name =>
    remember context (.parameter name) do return (← wrap (.generic · name), .none)
  | .literal values =>
    remember context (.literal values) do
      requireHashable (.literal values)
      fail (.literalType (TypeExpr.literal values).text)
  | .none => remember context .none do fail (.notReflectable TypeExpr.none.name)
  | .ellipsis => remember context .ellipsis do fail (.notReflectable TypeExpr.ellipsis.name)
termination_by (sizeOf expr, 2)

/-- The shape of a type expression that must not carry bounds. -/
def resolvePlain (expr : TypeExpr) : Reflect Shape := do
  withoutBounds expr (← resolveWith expr)
termination_by (sizeOf expr, 3)

def resolveAll (exprs : List TypeExpr) : Reflect (List Shape) :=
  match exprs with
  | [] => return []
  | expr :: rest => do
    let shape ← resolvePlain expr
    return shape :: (← resolveAll rest)
termination_by (sizeOf exprs, 0)

def resolveVariants (members : List TypeExpr) (position : Nat) (used : List String) :
    Reflect (List Variant) :=
  match members with
  | [] => return []
  | member :: rest =>
    if member.isNoneType then resolveVariants rest position used
    else do
      let name := variantName member position used
      let variant ← makeVariant name (← resolvePlain member)
      return variant :: (← resolveVariants rest (position + 1) (name :: used))
termination_by (sizeOf members, 0)

def resolveApplied (head : TypeHead) (arguments : List TypeExpr) : Reflect Shape :=
  match head.origin?, arguments with
  | some .list, arguments | some .abcSequence, arguments | some .abcMutableSequence, arguments =>
    match arguments with
    | [element] => do
      let shape ← resolvePlain element
      wrap (.array · shape)
    | _ => fail (.elementCount head.name)
  | some .set, arguments | some .frozenset, arguments | some .abcSet, arguments
  | some .abcMutableSet, arguments =>
    match arguments with
    | [element] => do
      let shape ← resolvePlain element
      wrap (.set · shape)
    | _ => fail (.elementCount head.name)
  | some .tuple, [element, .ellipsis] => do
    let shape ← resolvePlain element
    wrap (.array · shape)
  | some .tuple, arguments => do
    let elements ← resolveAll arguments
    return .declared (← declare (.tuple ⟨none, elements⟩))
  | some .dict, arguments | some .abcMapping, arguments | some .abcMutableMapping, arguments =>
    match arguments with
    | [key, value] => do
      match ← resolvePlain key with
      | .primitive kind =>
        match value with
        | .named (.standard .any) =>
          if kind.isText then return .document else wrap (.map · kind .document)
        | value =>
          let shape ← resolvePlain value
          wrap (.map · kind shape)
      | _ => fail (.keyNotPrimitive key.name)
    | _ => return .document
  | _, arguments =>
    match head with
    | .declared name =>
      match (context.classes.find? name).map ClassDeclaration.form with
      | some (ClassForm.record parameters) => do
        if parameters.length ≠ arguments.length then
          fail (.parameterCount name parameters.length arguments.length)
        let (generic, _) ← remember context (.named (.declared name)) do
          return (← resolveNamed context enter (.declared name), .none)
        let shapes ← resolveAll arguments
        let shape ← copy (parameters.zip shapes) generic
        record (.applied head arguments) shape
        return shape
      | _ => fail (.notReflectable (TypeExpr.applied head arguments).name)
    | head => fail (.notReflectable head.name)
termination_by (1 + sizeOf head + sizeOf arguments, 1)
end

/-- The shape of a type expression, with a bound on how many classes are entered inside each other
and a step that stands for the classes beyond it. -/
def resolveBelow (beyond : ClassDeclaration → Reflect Shape) :
    (depth : Nat) → TypeExpr → Reflect (Shape × Constraints)
  | 0 => resolveWith context copy beyond
  | depth + 1 =>
    resolveWith context copy fun type => openClass context type (resolveBelow beyond depth)

end Resolving

/-- The shape of a type expression and the constraints that belong to the field it stands in. The
depth bounds how many classes are entered inside each other; their number is enough, since each is
entered once. -/
def resolve (context : ReflectionContext) (depth : Nat) :
    TypeExpr → Reflect (Shape × Constraints) :=
  resolveBelow context substitute (fun type => fail (.notReflectable type.name)) depth

end Reflect

/-- The shape of a type expression and the constraints of the field it stands in, and the graph in
which the shape is. -/
def ReflectionContext.reflect (context : ReflectionContext) (evaluated : Evaluated) (graph : Graph)
    (expr : TypeExpr) : Except SchemaError ((Shape × Constraints) × Graph) := do
  let (found, state) ←
    (Reflect.resolve context context.classes.length expr).run ⟨graph, [], evaluated⟩
  return (found, state.graph)

end ShapeSchema
