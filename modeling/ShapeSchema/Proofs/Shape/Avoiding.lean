import ShapeSchema.Proofs.Shape.Parts

/-!
Walks that never meet some nodes, and walks that never go on from them.
-/

namespace ShapeSchema

inductive Graph.ReachesAvoiding (graph : Graph) (avoided : List Shape) : Shape → Shape → Prop
  | stay {shape : Shape} (hfree : shape ∉ avoided) : ReachesAvoiding graph avoided shape shape
  | go {shape part target : Shape} {steps : List Step} (hfree : shape ∉ avoided)
      (hpart : (steps, part) ∈ graph.parts shape)
      (hrest : ReachesAvoiding graph avoided part target) :
      ReachesAvoiding graph avoided shape target

namespace Graph

variable {graph : Graph} {avoided : List Shape} {shape target : Shape}

theorem ReachesAvoiding.not_mem (h : graph.ReachesAvoiding avoided shape target) :
    shape ∉ avoided := by
  cases h with
  | stay hfree => exact hfree
  | go hfree _ _ => exact hfree

/-- The fewer nodes are to be avoided, the more is reached. -/
theorem ReachesAvoiding.mono {fewer : List Shape} (h : graph.ReachesAvoiding avoided shape target)
    (hsub : fewer ⊆ avoided) : graph.ReachesAvoiding fewer shape target := by
  induction h with
  | stay hfree => exact .stay fun hmem => hfree (hsub hmem)
  | go hfree hpart _ ih => exact .go (fun hmem => hfree (hsub hmem)) hpart ih

theorem ReachesAvoiding.reaches (h : graph.ReachesAvoiding avoided shape target) :
    graph.Reaches shape target := by
  induction h with
  | stay _ => exact .refl graph _
  | go _ hpart _ ih => exact (Reaches.of_mem_parts hpart).trans ih

theorem Reaches.avoiding_nil (h : graph.Reaches shape target) :
    graph.ReachesAvoiding [] shape target := by
  obtain ⟨_, _, hwalk⟩ := h
  induction hwalk with
  | stay shape => exact .stay List.not_mem_nil
  | go hpart _ ih => exact .go List.not_mem_nil hpart ih

/-- A walk either avoids a further node as well, or can be begun anew at the last visit of it. -/
theorem ReachesAvoiding.last_visit (h : graph.ReachesAvoiding avoided shape target)
    (node : Shape) :
    graph.ReachesAvoiding (node :: avoided) shape target ∨ target = node ∨
      ∃ steps part, (steps, part) ∈ graph.parts node ∧
        graph.ReachesAvoiding (node :: avoided) part target := by
  induction h with
  | @stay shape hfree =>
    by_cases hnode : shape = node
    · exact .inr (.inl hnode)
    · exact .inl (.stay (List.not_mem_cons_of_ne_of_not_mem hnode hfree))
  | @go shape part target steps hfree hpart _ ih =>
    rcases ih with hrest | hlater
    · by_cases hnode : shape = node
      · exact .inr (.inr ⟨steps, part, hnode ▸ hpart, hrest⟩)
      · exact .inl (.go (List.not_mem_cons_of_ne_of_not_mem hnode hfree) hpart hrest)
    · exact .inr hlater

/-- Whether some walk leads from a shape to another one and never goes on from some nodes. It may
end at one of them. -/
inductive Meets (graph : Graph) (closed : List Shape) : Shape → Shape → Prop
  | here {shape : Shape} : Meets graph closed shape shape
  | inside {shape part target : Shape} (hfree : shape ∉ closed)
      (hpart : part ∈ graph.shapesIn shape) (hrest : Meets graph closed part target) :
      Meets graph closed shape target

variable {closed : List Shape}

theorem Meets.reaches (h : graph.Meets closed shape target) : graph.Reaches shape target := by
  induction h with
  | here => exact .refl graph _
  | inside _ hpart _ ih =>
    obtain ⟨steps, hmem⟩ := mem_shapesIn.mp hpart
    exact (Reaches.of_mem_parts hmem).trans ih

theorem Meets.eq_of_mem (h : graph.Meets closed shape target) (hmem : shape ∈ closed) :
    target = shape := by
  cases h with
  | here => rfl
  | inside hfree _ _ => exact absurd hmem hfree

/-- A walk never goes on from the nodes, or it comes to one of them first. -/
theorem Reaches.meets_or (h : graph.Reaches shape target) (closed : List Shape) :
    graph.Meets closed shape target ∨ ∃ node ∈ closed, graph.Meets closed shape node := by
  obtain ⟨_, _, hwalk⟩ := h
  induction hwalk with
  | stay shape => exact .inl .here
  | @go shape part target _ _ _ hpart _ ih =>
    have hmem : part ∈ graph.shapesIn shape := mem_shapesIn.mpr ⟨_, hpart⟩
    by_cases hclosed : shape ∈ closed
    · exact .inr ⟨shape, hclosed, .here⟩
    · rcases ih with hrest | ⟨node, hnode, hrest⟩
      · exact .inl (.inside hclosed hmem hrest)
      · exact .inr ⟨node, hnode, .inside hclosed hmem hrest⟩

/-- A walk does not go on from a further node either, or can be begun anew behind its last visit. -/
theorem Meets.last_visit (h : graph.Meets closed shape target) (node : Shape) :
    graph.Meets (node :: closed) shape target ∨
      ∃ part ∈ graph.shapesIn node, graph.Meets (node :: closed) part target := by
  induction h with
  | here => exact .inl .here
  | @inside shape part target hfree hpart _ ih =>
    rcases ih with hrest | hlater
    · by_cases hnode : shape = node
      · exact .inr ⟨part, hnode ▸ hpart, hrest⟩
      · exact .inl (.inside (List.not_mem_cons_of_ne_of_not_mem hnode hfree) hpart hrest)
    · exact .inr hlater

/-- What is met from a node is the node, or met from a part of it without going on from the node. -/
theorem Meets.eq_or_part (h : graph.Meets closed shape target) :
    target = shape ∨
      ∃ part ∈ graph.shapesIn shape, graph.Meets (shape :: closed) part target := by
  rcases h.last_visit shape with hnever | hlater
  · exact .inl (hnever.eq_of_mem List.mem_cons_self)
  · exact .inr hlater

/-- Where no node of a list is reached, all that is reached is reached past them. -/
theorem Reaches.avoiding (h : graph.Reaches shape target)
    (hnone : ∀ node ∈ avoided, ¬ graph.Reaches shape node) :
    graph.ReachesAvoiding avoided shape target := by
  obtain ⟨_, _, hwalk⟩ := h
  induction hwalk with
  | stay shape => exact .stay fun hmem => hnone shape hmem (.refl graph shape)
  | @go shape part target _ _ _ hpart _ ih =>
    have hfree : shape ∉ avoided := fun hmem => hnone shape hmem (.refl graph shape)
    refine .go hfree hpart (ih fun node hmem hpast => ?_)
    exact hnone node hmem ((Reaches.of_mem_parts hpart).trans hpast)

end Graph

end ShapeSchema
