import Mathlib.Data.Set.Card
import ShapeSchema.Shape.Walk

/-!
A shape reaches finitely many shapes: those below its own wrappers, and those below the wrappers of
what the declared types hold.
-/

namespace ShapeSchema

def Shape.spine : Shape → List Shape
  | .optional label inner => .optional label inner :: inner.spine
  | .array label element => .array label element :: element.spine
  | .set label element => .set label element :: element.spine
  | .fixedArray label element length => .fixedArray label element length :: element.spine
  | .map label key value => .map label key value :: value.spine
  | .newtype label name inner => .newtype label name inner :: inner.spine
  | shape => [shape]

theorem Shape.self_mem_spine (shape : Shape) : shape ∈ shape.spine := by
  cases shape <;> exact List.mem_cons_self

namespace Graph

def shapesHeld (graph : Graph) : List Shape :=
  graph.declarations.toList.flatMap fun type => type.parts.flatMap fun part => part.2.spine

theorem mem_shapesHeld {graph : Graph} {index : Nat} {type : Declaration}
    (hfound : graph.declaration? index = some type) {steps : List Step} {part : Shape}
    (hpart : (steps, part) ∈ type.parts) : part.spine ⊆ graph.shapesHeld := by
  intro target htarget
  have htype : type ∈ graph.declarations.toList :=
    Array.mem_toList_iff.mpr (Array.mem_of_getElem? hfound)
  exact List.mem_flatMap.mpr ⟨type, htype, List.mem_flatMap.mpr ⟨(steps, part), hpart, htarget⟩⟩

/-- What a shape holds is below its wrappers, or it is held by a declared type. -/
theorem spine_part {graph : Graph} {shape part : Shape} {steps : List Step}
    (hpart : (steps, part) ∈ graph.parts shape) :
    part.spine ⊆ shape.spine ++ graph.shapesHeld := by
  cases shape with
  | declared index =>
    cases hfound : graph.declaration? index with
    | none => simp [parts, hfound] at hpart
    | some type =>
      have hheld : (steps, part) ∈ type.parts := by simpa [parts, hfound] using hpart
      exact List.subset_append_of_subset_right _ (mem_shapesHeld hfound hheld)
  | optional | array | set | fixedArray | map | newtype =>
    simp only [parts, List.mem_singleton, Prod.mk.injEq] at hpart
    obtain ⟨rfl, rfl⟩ := hpart
    exact List.subset_append_of_subset_left _ (List.subset_cons_self _ _)
  | _ => simp [parts] at hpart

theorem Walk.mem_spine {graph : Graph} {shape target : Shape} {passed : List Shape}
    {steps : List Step} (hwalk : graph.Walk shape passed steps target) :
    target ∈ shape.spine ++ graph.shapesHeld := by
  induction hwalk with
  | stay shape => exact List.mem_append_left _ shape.self_mem_spine
  | @go shape part target _ _ _ hpart _ ih =>
    rcases List.mem_append.mp ih with hspine | hheld
    · exact spine_part hpart hspine
    · exact List.mem_append_right _ hheld

/-- The named wrappers and declared types that a shape reaches. -/
def nominalsFrom (graph : Graph) (root : Shape) : Set Shape :=
  {node | node.isNominal ∧ graph.Reaches root node}

theorem nominalsFrom_finite (graph : Graph) (root : Shape) : (graph.nominalsFrom root).Finite := by
  refine (root.spine ++ graph.shapesHeld).finite_toSet.subset ?_
  rintro node ⟨_, _, _, hwalk⟩
  exact hwalk.mem_spine

/-- Different nodes that a shape reaches are no more than there are such nodes. -/
theorem length_le_nominalsFrom {graph : Graph} {root : Shape} {nodes : List Shape}
    (hnodup : nodes.Nodup) (hnodes : ∀ node ∈ nodes, node ∈ graph.nominalsFrom root) :
    nodes.length ≤ (graph.nominalsFrom root).ncard := by
  have hsubset : (nodes.toFinset : Set Shape) ⊆ graph.nominalsFrom root := by
    intro node hnode
    exact hnodes node (by simpa using hnode)
  have hcard := Set.ncard_le_ncard hsubset (graph.nominalsFrom_finite root)
  rwa [Set.ncard_coe_finset, List.toFinset_card_of_nodup hnodup] at hcard

end Graph
end ShapeSchema
