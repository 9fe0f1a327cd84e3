import ShapeSchema.Reflection
import ShapeSchema.Schema.Session

/-!
Modules of declared classes and named shapes, whose schemas are derived by name.
-/

namespace ShapeSchema

/-- What a name of a module stands for. -/
inductive Target where
  | shape (graph : Graph) (root : Shape)
  /-- A class among those that it may refer to. -/
  | reflected (classes : ClassTable) (name : String)

/-- The schema of a target. A plain value is no type expression either; one that cannot be looked up
among the known ones is of the wrong type. -/
def Target.schema (settings : DeriveSettings) : Target → Except SchemaError Document
  | shape _ (.raw value) =>
    .error ⟨if value.isScalar then .notReflectable value.literal else .unhashable value.typeName,
      .nowhere⟩
  | shape graph root => graph.derive settings root .none []
  | reflected classes name => do
    let evaluated ← classes.evaluateModels.mapError fun error => ⟨error.defect name, .nowhere⟩
    let context : ReflectionContext := ⟨classes, [], settings.defaultIntKind⟩
    let ((root, _), graph) ← context.reflect evaluated .empty (.named (.declared name))
    graph.derive settings root .none []

/-- Declared classes, and named shapes with the graph in which they are. -/
structure Module where
  classes : ClassTable
  graph : Graph
  shapes : List (String × Shape)

/-- What a name stands for. A shape hides a class of its name. -/
def Module.find? (contents : Module) (name : String) : Option Target :=
  match contents.shapes.lookup name with
  | some root => some (.shape contents.graph root)
  | none =>
    (contents.classes.find? name).map fun _ => .reflected contents.classes name

end ShapeSchema
