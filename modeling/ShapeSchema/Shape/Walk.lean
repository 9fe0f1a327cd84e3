import ShapeSchema.Shape

/-!
Walks through a shape graph: which shapes are parts of a shape, by which steps they are reached, and
which constraints are met on the way. Named wrappers and optional shapes are passed without a step.
-/

namespace ShapeSchema

/-- The shapes that a payload holds, each with the steps to it. -/
def Payload.parts : Payload → List (List Step × Shape)
  | unit => []
  | newtype shape => [([], shape)]
  | tuple elements => elements.mapIdx fun position shape => ([.index position], shape)
  | struct fields => fields.map fun field => ([.member field.name], field.shape)

def Payload.constraintSets : Payload → List Constraints
  | struct fields => fields.map Field.constraints
  | _ => []

def Variant.parts (variant : Variant) : List (List Step × Shape) :=
  variant.payload.parts.map fun (steps, shape) => (.member variant.name :: steps, shape)

def Variant.constraintSets (variant : Variant) : List Constraints :=
  variant.constraints :: variant.payload.constraintSets

def Extra.parts : Extra → List (List Step × Shape)
  | values shape => [([.values], shape)]
  | _ => []

namespace Declaration

def parts : Declaration → List (List Step × Shape)
  | struct type => (Payload.struct type.fields).parts ++ type.extra.parts
  | tuple type => (Payload.tuple type.elements).parts
  | enum type => type.variants.flatMap Variant.parts

def constraintSets : Declaration → List Constraints
  | struct type => type.fields.map Field.constraints
  | tuple _ => []
  | enum type => type.variants.flatMap Variant.constraintSets

end Declaration

namespace Graph

/-- The shapes that a shape holds directly, each with the steps to it. -/
def parts (graph : Graph) : Shape → List (List Step × Shape)
  | .optional _ inner | .newtype _ _ inner => [([], inner)]
  | .array _ element | .set _ element | .fixedArray _ element _ => [([.element], element)]
  | .map _ _ value => [([.values], value)]
  | .declared index => ((graph.declaration? index).map Declaration.parts).getD []
  | _ => []

def constraintSets (graph : Graph) : Shape → List Constraints
  | .declared index => ((graph.declaration? index).map Declaration.constraintSets).getD []
  | _ => []

/-- A walk from a shape to another one, with the shapes that it leaves behind and its steps. -/
inductive Walk (graph : Graph) : Shape → List Shape → List Step → Shape → Prop where
  | stay (shape : Shape) : Walk graph shape [] [] shape
  | go {shape part target : Shape} {passed : List Shape} {steps more : List Step}
      (isPart : (steps, part) ∈ graph.parts shape) (rest : Walk graph part passed more target) :
      Walk graph shape (shape :: passed) (steps ++ more) target

/-- Walks that meet form one walk. -/
theorem Walk.append {graph : Graph} {shape middle target : Shape} {passed further : List Shape}
    {steps more : List Step} (first : graph.Walk shape passed steps middle)
    (second : graph.Walk middle further more target) :
    graph.Walk shape (passed ++ further) (steps ++ more) target := by
  induction first with
  | stay shape => exact second
  | go isPart _ ih =>
    rw [List.cons_append, List.append_assoc]
    exact .go isPart (ih second)

def Reaches (graph : Graph) (shape target : Shape) : Prop :=
  ∃ passed steps, graph.Walk shape passed steps target

theorem Reaches.refl (graph : Graph) (shape : Shape) : graph.Reaches shape shape :=
  ⟨[], [], .stay shape⟩

theorem Reaches.trans {graph : Graph} {shape middle target : Shape}
    (first : graph.Reaches shape middle) (second : graph.Reaches middle target) :
    graph.Reaches shape target := by
  obtain ⟨_, _, walk⟩ := first
  obtain ⟨_, _, further⟩ := second
  exact ⟨_, _, walk.append further⟩

theorem Reaches.of_mem_parts {graph : Graph} {shape part : Shape} {steps : List Step}
    (isPart : (steps, part) ∈ graph.parts shape) : graph.Reaches shape part :=
  ⟨_, _, .go isPart (.stay part)⟩

end Graph
end ShapeSchema
