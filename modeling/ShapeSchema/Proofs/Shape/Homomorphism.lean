import Mathlib
import ShapeSchema.Proofs.Shape.Visiting

/-!
A substitution makes an image of the graph below its root: every node has a replacement with the
same data of its own, around the replacements of its parts, and the given graph stays as it was.
-/

namespace ShapeSchema
namespace Substitution

variable {task : Task}

theorem isFaithful_start (task : Task) : State.IsFaithful task [] ⟨task.base, []⟩ where
  size := Nat.le_refl _
  declared _ _ := rfl
  made _ hfresh hknown := absurd hfresh (Nat.not_le_of_lt hknown)
  right hmem := absurd hmem List.not_mem_nil
  unique _ hmem := absurd hmem List.not_mem_nil
  injective hmem := absurd hmem List.not_mem_nil

/-- What is recorded in the end is an image. -/
theorem State.IsFaithful.isImage {state : State} {s t : Shape} (h : state.IsFaithful task [])
    (hrelated : state.Replaces task s t) :
    task.base.IsImage state.graph task.bindings (state.Replaces task) s t := by
  cases hrelated with
  | leaf hleaf => exact .leaf hleaf
  | parameter label name => exact .parameter label name
  | met hpair =>
    cases h.right hpair with
    | @kept _ inner hcontent hinner =>
      obtain ⟨label, heq⟩ := Shape.exists_refill_eq hcontent
      have himage : task.base.IsImage state.graph task.bindings (state.Replaces task) s
          (s.refill label inner) := .wrapper label hcontent hinner
      rwa [heq] at himage
    | rebuilt hcontent _ hinner _ => exact .wrapper _ hcontent hinner
    | copied hgiven _ _ hdone =>
      obtain ⟨content, hcontent, himage⟩ := hdone.resolve_left List.not_mem_nil
      exact .declared hgiven hcontent himage

/-- A substitution ends in a state without copies in the making, whichever bound it is given and
whatever stands for the copies beyond it. -/
theorem exists_isFaithful {graph : Graph} (hclosed : graph.IsClosed) {bindings : Bindings}
    (hbindings : bindings ≠ []) {root : Shape} (hroot : graph.holds root) {result : Shape}
    {other : Graph} (hsubst : graph.substitute bindings root = (result, other)) :
    ∃ replaced, State.IsFaithful ⟨graph, bindings, root⟩ [] ⟨other, replaced⟩ ∧
      State.Replaces ⟨graph, bindings, root⟩ ⟨other, replaced⟩ root result ∧
      ∀ beyond, ∀ depth ≥ graph.declarations.size,
        (visitBelow bindings beyond depth root).run ⟨graph, []⟩ = (result, ⟨other, replaced⟩) := by
  let task : Task := ⟨graph, bindings, root⟩
  let stage : Stage := ⟨[], graph.declarations.size, []⟩
  have henters : stage.Enters task root := ⟨[], [], .stay root, by simp⟩
  have hbound : Context.unopened graph [] ≤ graph.declarations.size := by
    simp [Context.unopened]
  have hempty : bindings.isEmpty = false := by simpa using hbindings
  rcases hrun : (visit bindings graph.declarations.size root).run ⟨graph, []⟩ with ⟨t, last⟩
  have hvisits : ∀ beyond, ∀ depth ≥ graph.declarations.size,
      (visitBelow bindings beyond depth root).run ⟨graph, []⟩ = (t, last) ∧
        last.IsFaithful task [] ∧ last.Replaces task root t := by
    intro beyond depth hdepth
    have hvisit : Visits task stage (stage.Leads task root)
        (visit bindings graph.declarations.size) (visitBelow bindings beyond depth) root :=
      visits hclosed stage beyond depth hdepth root hroot henters
    obtain ⟨hsame, hfaithful, _, _, hrelated⟩ :=
      hvisit ⟨graph, []⟩ (isFaithful_start task) (List.nil_subset _) hbound
    rw [hrun] at hsame hfaithful hrelated
    exact ⟨hsame, hfaithful, hrelated⟩
  simp only [Graph.substitute, hempty, Bool.false_eq_true, if_false, hrun] at hsubst
  cases hsubst
  obtain ⟨_, hfaithful, hrelated⟩ :=
    hvisits (fun index _ => return .declared index) _ (Nat.le_refl _)
  exact ⟨last.replaced, hfaithful, hrelated, fun beyond depth hdepth =>
    (hvisits beyond depth hdepth).1⟩

/-- Whether a node below the root has another one as its replacement. -/
def State.Relates (task : Task) (state : State) (s t : Shape) : Prop :=
  task.base.Reaches task.root s ∧ state.Replaces task s t

section Final

variable {state : State} {s t u : Shape}

theorem State.IsFaithful.image (h : state.IsFaithful task []) (hst : state.Relates task s t) :
    task.base.IsImage state.graph task.bindings (state.Relates task) s t :=
  (h.isImage hst.2).imp fun _ _ hpart _ hrelated =>
    ⟨hst.1.trans (.of_mem_parts hpart), hrelated⟩

/-- All nodes below the root have replacements if the root has one. -/
theorem State.IsFaithful.total (h : state.IsFaithful task [])
    (hroot : state.Replaces task task.root t) (hreaches : task.base.Reaches task.root s) :
    ∃ u, state.Relates task s u := by
  refine hreaches.part_induction (P := fun s => ∃ u, state.Relates task s u)
    ⟨t, .refl _ _, hroot⟩ fun s hs => ?_
  obtain ⟨u, hsu⟩ := hs
  exact (h.image hsu).part

theorem State.Replaces.mem (h : state.Replaces task s t) (hs : s.isDeclared ∨ s.content?.isSome) :
    (s, t) ∈ state.replaced := by
  cases h with
  | met hpair => exact hpair
  | leaf hleaf => cases s <;> simp [Shape.isLeaf, Shape.isDeclared, Shape.content?] at hleaf hs
  | parameter label name => simp [Shape.isDeclared, Shape.content?] at hs

/-- A declared type has one replacement, which is a new copy. -/
theorem State.IsFaithful.copy {index : Nat} (h : state.IsFaithful task [])
    (hst : state.Relates task (.declared index) t) :
    ∃ copy, t = .declared copy ∧ task.base.declarations.size ≤ copy ∧
      ∀ u, state.Relates task (.declared index) u → u = t := by
  have hpair := hst.2.mem (.inl rfl)
  have hunique : ∀ u, state.Relates task (.declared index) u → u = t :=
    fun u hu => h.unique (.inl rfl) (hu.2.mem (.inl rfl)) hpair
  cases h.right hpair with
  | kept hcontent => cases hcontent
  | rebuilt hcontent => cases hcontent
  | copied _ hfresh _ _ => exact ⟨_, rfl, hfresh, hunique⟩

end Final

end Substitution

/-- Whether a relation takes the part of a graph below a root to what a substitution made of it. -/
structure Graph.IsHomomorphism (graph other : Graph) (bindings : Bindings) (root result : Shape)
    (R : Shape → Shape → Prop) : Prop where
  start : R root result
  /-- Only nodes below the root are related, each to images of it. -/
  image : ∀ s t, R s t → graph.Reaches root s ∧ graph.IsImage other bindings R s t
  total : ∀ s, graph.Reaches root s → ∃ t, R s t
  /-- A declared type has one image, which is new. -/
  copy : ∀ index, graph.Reaches root (.declared index) →
    ∃ copy, graph.declarations.size ≤ copy ∧ ∀ t, R (.declared index) t ↔ t = .declared copy
  /-- What was declared before is as it was. -/
  kept : ∀ index < graph.declarations.size, other.declaration? index = graph.declaration? index

/-- A substitution ends, however deeply copies may be begun inside each other beyond the number of
declared types, and what it makes is an image of the graph below the root. -/
theorem Graph.substitute_isHomomorphism {graph : Graph} (hclosed : graph.IsClosed)
    {bindings : Bindings} (hbindings : bindings ≠ []) {root : Shape} (hroot : graph.holds root)
    {result : Shape} {other : Graph} (hsubst : graph.substitute bindings root = (result, other)) :
    (∃ R, graph.IsHomomorphism other bindings root result R) ∧
      ∃ replaced, ∀ depth ≥ graph.declarations.size,
        (Substitution.visit bindings depth root).run ⟨graph, []⟩ = (result, ⟨other, replaced⟩) := by
  obtain ⟨replaced, hfaithful, hrelated, hruns⟩ :=
    Substitution.exists_isFaithful hclosed hbindings hroot hsubst
  refine ⟨⟨Substitution.State.Relates ⟨graph, bindings, root⟩ ⟨other, replaced⟩, ?_⟩, replaced,
    hruns _⟩
  exact {
    start := ⟨.refl graph root, hrelated⟩
    image := fun s t hst => ⟨hst.1, hfaithful.image hst⟩
    total := fun s hreaches => hfaithful.total hrelated hreaches
    copy := fun index hreaches => by
      obtain ⟨t, hst⟩ := hfaithful.total hrelated hreaches
      obtain ⟨copy, rfl, hfresh, hunique⟩ := hfaithful.copy hst
      refine ⟨copy, hfresh, fun u => ⟨hunique u, ?_⟩⟩
      rintro rfl
      exact hst
    kept := hfaithful.declared }

def linkGraph : Graph where
  declarations := #[.struct ⟨"Link", [⟨"item", .generic 0 "T", .none, by decide⟩,
    ⟨"onward", .newtype 1 "Onward" (.declared 0), .none, by decide⟩], none,
    .values (.generic 2 "U")⟩]
  labels := 3

def boundLinkGraph : Graph where
  declarations := linkGraph.declarations.push (.struct ⟨"Link",
    [⟨"item", .optional 3 (.declared 0), .none, by decide⟩,
      ⟨"onward", .newtype 3 "Onward" (.declared 1), .none, by decide⟩], none,
    .values (.generic 2 "U")⟩)
  labels := 4

theorem substitute_isHomomorphism_link :
    linkGraph.substitute [("T", .optional 3 (.declared 0))] (.declared 0) =
        (.declared 1, boundLinkGraph) ∧
      (∃ R, linkGraph.IsHomomorphism boundLinkGraph [("T", .optional 3 (.declared 0))]
        (.declared 0) (.declared 1) R) ∧
      ∃ replaced, ∀ depth ≥ linkGraph.declarations.size,
        (Substitution.visit [("T", .optional 3 (.declared 0))] depth (.declared 0)).run
          ⟨linkGraph, []⟩ = (.declared 1, ⟨boundLinkGraph, replaced⟩) := by
  have hsubst : linkGraph.substitute [("T", .optional 3 (.declared 0))] (.declared 0) =
      (.declared 1, boundLinkGraph) := by
    -- the equations of the state monad that this unfolds come with the whole library only
    cbv
  exact ⟨hsubst, linkGraph.substitute_isHomomorphism (by decide) (by decide) (by decide) hsubst⟩

end ShapeSchema
