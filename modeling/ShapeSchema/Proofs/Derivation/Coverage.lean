import ShapeSchema.Proofs.Cache.Soundness
import ShapeSchema.Proofs.Derivation.Requirements
import ShapeSchema.Proofs.Shape.Avoiding
import ShapeSchema.Schema.Session

/-!
What a successful derivation has looked at. A cut leaves out the parts of a node, but these are
looked at where the node is expanded, so that every shape which the root reaches is in order.
-/

namespace ShapeSchema

namespace Context

variable {context : Context} {active : List Shape} {shape : Shape}

/-- Whether a shape has a schema while some nodes are being expanded. -/
def Derives (context : Context) (active : List Shape) (shape : Shape) : Prop :=
  Succeeds (context.walk Policy.plain active shape .nowhere)

/-- The properties that the schema of a shape lists while some nodes are being expanded. -/
def listed (context : Context) (active : List Shape) (shape : Shape) : List String :=
  match context.walk Policy.plain active shape .nowhere with
  | .ok doc => (Tagging.propertiesOf doc).keys
  | .error _ => []

/-- The place of a shape does not matter for what its schema says. -/
theorem outdoes_elsewhere {place : Location} {doc : Document}
    (hdoc : context.walk Policy.plain active shape place = .ok doc) (there : Location) :
    ∃ other, context.walk Policy.plain active shape there = .ok other ∧
      Schema.Outdoes doc other :=
  (context.unrolling_of_plain active shape place doc hdoc).outdoes active (List.Subset.refl active)
    there

/-- A derivation provides the schemas of the parts, whatever is expanded above. -/
theorem provides_walk (context : Context) (active : List Shape) :
    Provides (context.walk Policy.plain active) (context.Derives active)
      (context.listed active) where
  succeeds shape place := by
    constructor
    · rintro ⟨doc, hdoc⟩
      obtain ⟨other, hother, _⟩ := outdoes_elsewhere hdoc .nowhere
      exact ⟨other, hother⟩
    · rintro ⟨doc, hdoc⟩
      obtain ⟨other, hother, _⟩ := outdoes_elsewhere hdoc place
      exact ⟨other, hother⟩
  typed {shape place doc} hdoc := by
    obtain ⟨_, _, houtdoes⟩ := outdoes_elsewhere hdoc .nowhere
    exact houtdoes.tightens.left
  listed {shape place doc} hdoc key := by
    obtain ⟨other, hother, houtdoes⟩ := outdoes_elsewhere hdoc .nowhere
    obtain ⟨back, hback, hinverse⟩ := outdoes_elsewhere hother place
    cases hdoc.symm.trans hback
    simp only [Context.listed, hother, ← Document.has_eq_mem]
    exact ⟨fun hhas => hinverse.tightens.properties hhas,
      fun hhas => houtdoes.tightens.properties hhas⟩

theorem derives_of_not_nominal (hnominal : shape.isNominal = false) :
    context.Derives active shape ↔ context.Fits shape ∧
      context.graph.KeepsApart (context.listed active) shape ∧
        EachPart (context.Derives active) (context.graph.parts shape) := by
  rw [Derives, context.walk_of_not_nominal Policy.plain active .nowhere hnominal]
  exact context.succeeds_level (context.provides_walk active)

theorem derives_of_mem (hnominal : shape.isNominal) (hmem : shape ∈ active) :
    context.Derives active shape :=
  ⟨_, context.plain_of_mem .nowhere hnominal hmem⟩

theorem derives_of_not_mem (hnominal : shape.isNominal) (hmem : shape ∉ active) :
    context.Derives active shape ↔ context.Fits shape ∧
      context.graph.KeepsApart (context.listed (shape :: active)) shape ∧
        EachPart (context.Derives (shape :: active)) (context.graph.parts shape) := by
  rw [Derives, context.plain_of_not_mem .nowhere hnominal hmem]
  exact context.succeeds_level (context.provides_walk (shape :: active))

/-- Every shape that can be reached past the nodes being expanded is in order. -/
theorem Derives.fits (h : context.Derives active shape) {target : Shape}
    (hreaches : context.graph.ReachesAvoiding active shape target) : context.Fits target := by
  induction active, shape using context.graph.expansion_induction generalizing target with
  | pass active shape hnominal ih =>
    obtain ⟨hfits, _, hparts⟩ := (derives_of_not_nominal hnominal).mp h
    cases hreaches with
    | stay _ => exact hfits
    | go _ hpart hrest => exact ih _ _ hpart (hparts _ _ hpart) hrest
  | cut active shape _ hmem => exact absurd hmem hreaches.not_mem
  | expand active shape hnominal hmem ih =>
    obtain ⟨hfits, _, hparts⟩ := (derives_of_not_mem hnominal hmem).mp h
    -- the parts of the node are expanded below it, so only walks that do not come back are left
    rcases hreaches.last_visit shape with hrest | rfl | ⟨steps, part, hpart, hrest⟩
    · exact absurd List.mem_cons_self hrest.not_mem
    · exact hfits
    · exact ih steps part hpart (hparts steps part hpart) hrest

/-- A root has a schema if its constraints fit and it can be derived. -/
theorem succeeds_derive? {c : Constraints} :
    Succeeds (context.derive? shape c) ↔ c.Fit shape ∧ context.Derives [] shape :=
  context.succeeds_constrained (context.provides_walk [])

end Context

/-- A fresh builder gives what the plain derivation gives, with a cache or without one. -/
theorem Graph.derive_eq {graph other : Graph} {root shape : Shape} {bindings : Bindings}
    (hsubst : graph.substitute bindings root = (shape, other)) (settings : DeriveSettings)
    (c : Constraints) :
    graph.derive settings root c bindings =
      Context.derive? ⟨other, settings.strictObjects⟩ shape c := by
  have hsound : ∀ cache, some Cache.empty = some cache →
      cache.IsSound ⟨other, settings.strictObjects⟩ fun _ => True := by
    rintro _ ⟨⟩
    exact Cache.isSound_of_empty rfl
  have hcached : (Context.deriveWith ⟨other, settings.strictObjects⟩ (some .empty) shape c).1 =
      Context.derive? ⟨other, settings.strictObjects⟩ shape c :=
    (Context.deriveWith_of_isSound _ (fun _ _ _ _ _ => trivial) hsound trivial c).1
  simp only [derive, hsubst, hcached, ite_self]

/-- Without bindings this is over the same graph. -/
theorem Graph.derive_nil (graph : Graph) (settings : DeriveSettings) (root : Shape)
    (c : Constraints) :
    graph.derive settings root c [] = Context.derive? ⟨graph, settings.strictObjects⟩ root c :=
  derive_eq rfl settings c

end ShapeSchema
