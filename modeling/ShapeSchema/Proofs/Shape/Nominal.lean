import ShapeSchema.Proofs.Shape.Finite
import ShapeSchema.Proofs.Shape.Parts

/-!
Which nominal nodes a shape refers to directly, which is through shapes without an identity only,
and which nodes are on a common cycle.
-/

namespace ShapeSchema

namespace Shape

/-- The first nominal node that is met from a shape, if there is one: the shape itself, or what is
below its wrappers without an identity. -/
def firstNominal? : Shape → Option Shape
  | .optional _ inner => inner.firstNominal?
  | .array _ element | .set _ element | .fixedArray _ element _ => element.firstNominal?
  | .map _ _ value => value.firstNominal?
  | .newtype label name inner => some (.newtype label name inner)
  | .declared index => some (.declared index)
  | _ => none

variable {shape node : Shape}

theorem firstNominal?_of_isNominal (hnominal : shape.isNominal) :
    shape.firstNominal? = some shape := by
  cases shape with
  | newtype | declared => rfl
  | _ => simp [isNominal] at hnominal

theorem isNominal_of_firstNominal? (hfirst : shape.firstNominal? = some node) :
    node.isNominal := by
  induction shape with
  | optional _ _ ih | array _ _ ih | set _ _ ih | fixedArray _ _ _ ih | map _ _ _ ih =>
    exact ih hfirst
  | newtype | declared =>
    cases hfirst
    rfl
  | _ => cases hfirst

theorem mem_spine_of_firstNominal? (hfirst : shape.firstNominal? = some node) :
    node ∈ shape.spine := by
  induction shape with
  | optional _ _ ih | array _ _ ih | set _ _ ih | fixedArray _ _ _ ih | map _ _ _ ih =>
    exact List.mem_cons_of_mem _ (ih hfirst)
  | newtype | declared =>
    cases hfirst
    exact List.mem_cons_self
  | _ => cases hfirst

end Shape

namespace Graph

variable {graph : Graph} {shape node : Shape}

/-- A shape without an identity has at most one part, and its first node is that of the part. -/
theorem shapesIn_of_not_nominal (graph : Graph) (hnominal : shape.isNominal = false) :
    graph.shapesIn shape = [] ∧ shape.firstNominal? = none ∨
      ∃ inner, graph.shapesIn shape = [inner] ∧ inner.firstNominal? = shape.firstNominal? := by
  cases shape with
  | newtype | declared => simp [Shape.isNominal] at hnominal
  | optional _ inner | array _ inner | set _ inner | fixedArray _ inner _ | map _ _ inner =>
    exact .inr ⟨inner, rfl, rfl⟩
  | _ => exact .inl ⟨rfl, rfl⟩

theorem firstNominal?_part (hnominal : shape.isNominal = false) {part : Shape}
    (hpart : part ∈ graph.shapesIn shape) : part.firstNominal? = shape.firstNominal? := by
  obtain ⟨hnone, _⟩ | ⟨inner, hinner, hfirst⟩ := graph.shapesIn_of_not_nominal hnominal
  · rw [hnone] at hpart
    cases hpart
  · rw [hinner] at hpart
    rw [List.mem_singleton.mp hpart]
    exact hfirst

theorem Reaches.of_mem_shapesIn {part : Shape} (hpart : part ∈ graph.shapesIn shape) :
    graph.Reaches shape part := by
  obtain ⟨steps, hmem⟩ := mem_shapesIn.mp hpart
  exact .of_mem_parts hmem

theorem reaches_firstNominal? (graph : Graph) (hfirst : shape.firstNominal? = some node) :
    graph.Reaches shape node := by
  induction shape with
  | optional _ _ ih | array _ _ ih | set _ _ ih | fixedArray _ _ _ ih | map _ _ _ ih =>
    refine Reaches.trans (.of_mem_shapesIn ?_) (ih hfirst)
    exact List.mem_cons_self
  | newtype | declared =>
    cases hfirst
    exact .refl graph _
  | _ => cases hfirst

def Mentions (graph : Graph) (shape node : Shape) : Prop :=
  ∃ part ∈ graph.shapesIn shape, part.firstNominal? = some node

theorem Mentions.reaches (h : graph.Mentions shape node) : graph.Reaches shape node := by
  obtain ⟨part, hpart, hfirst⟩ := h
  exact (Reaches.of_mem_shapesIn hpart).trans (graph.reaches_firstNominal? hfirst)

theorem Mentions.isNominal (h : graph.Mentions shape node) : node.isNominal := by
  obtain ⟨_, _, hfirst⟩ := h
  exact Shape.isNominal_of_firstNominal? hfirst

/-- Whether two nodes are in the same strongly connected component. -/
def SameComponent (graph : Graph) (shape other : Shape) : Prop :=
  graph.Reaches shape other ∧ graph.Reaches other shape

/-- A node that is mentioned is in the component unless it does not lead back. -/
theorem Mentions.sameComponent_iff (h : graph.Mentions shape node) :
    graph.SameComponent shape node ↔ graph.Reaches node shape :=
  and_iff_right h.reaches

end Graph
end ShapeSchema
