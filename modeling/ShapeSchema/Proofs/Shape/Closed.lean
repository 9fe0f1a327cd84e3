import ShapeSchema.Shape.Walk

/-!
Closed graphs: every declared type that is mentioned is declared. What a shape of a closed graph
holds is again of the graph, however the graph is extended.
-/

namespace ShapeSchema

def Shape.isWithin (size : Nat) : Shape → Bool
  | .optional _ inner | .newtype _ _ inner => inner.isWithin size
  | .array _ element | .set _ element | .fixedArray _ element _ => element.isWithin size
  | .map _ _ value => value.isWithin size
  | .declared index => decide (index < size)
  | _ => true

namespace Graph

def holds (graph : Graph) (shape : Shape) : Bool :=
  shape.isWithin graph.declarations.size

theorem holds_declared_iff {graph : Graph} {index : Nat} :
    graph.holds (.declared index) ↔ index < graph.declarations.size :=
  decide_eq_true_iff

/-- Whether the declared types mention each other only. -/
def IsClosed (graph : Graph) : Prop :=
  ∀ type ∈ graph.declarations.toList, ∀ part ∈ type.parts, graph.holds part.2

instance (graph : Graph) : Decidable graph.IsClosed :=
  inferInstanceAs (Decidable (∀ type ∈ graph.declarations.toList, ∀ part ∈ type.parts, _))

theorem mem_of_declaration? {graph : Graph} {index : Nat} {type : Declaration}
    (hfound : graph.declaration? index = some type) : type ∈ graph.declarations.toList :=
  Array.mem_toList_iff.mpr (Array.mem_of_getElem? hfound)

section Changes

variable {graph : Graph} {index position : Nat} {type : Declaration}

theorem declaration?_declare (hindex : index < graph.declarations.size) :
    (graph.declare type).2.declaration? index = graph.declaration? index := by
  simp only [declare, declaration?, Array.getElem?_push]
  rw [if_neg (by omega)]

theorem declaration?_define (hne : index ≠ position) :
    (graph.define position type).declaration? index = graph.declaration? index := by
  simp only [define, declaration?]
  exact Array.getElem?_setIfInBounds_ne hne.symm

theorem declaration?_define_self (hposition : position < graph.declarations.size) :
    (graph.define position type).declaration? position = some type := by
  simp only [define, declaration?]
  exact Array.getElem?_setIfInBounds_self_of_lt hposition

end Changes

theorem IsClosed.holds_of_mem {graph : Graph} (hclosed : graph.IsClosed) {index : Nat}
    {type : Declaration} (hfound : graph.declaration? index = some type) {steps : List Step}
    {part : Shape} (hpart : (steps, part) ∈ type.parts) : graph.holds part :=
  hclosed type (mem_of_declaration? hfound) (steps, part) hpart

/-- A closed graph holds the parts of what it holds. -/
theorem IsClosed.holds_part {graph : Graph} (hclosed : graph.IsClosed) (shape : Shape)
    (hshape : graph.holds shape) (steps : List Step) (part : Shape)
    (hpart : (steps, part) ∈ graph.parts shape) : graph.holds part := by
  cases shape with
  | declared index =>
    cases hfound : graph.declaration? index with
    | none => simp [parts, hfound] at hpart
    | some type => exact hclosed.holds_of_mem hfound (by simpa [parts, hfound] using hpart)
  | optional | array | set | fixedArray | map | newtype =>
    simp only [parts, List.mem_singleton, Prod.mk.injEq] at hpart
    obtain ⟨rfl, rfl⟩ := hpart
    exact hshape
  | _ => simp [parts] at hpart

end Graph

end ShapeSchema
