import ShapeSchema.Proofs.Derivation.Agreement
import ShapeSchema.Proofs.Derivation.Coverage

/-!
What it costs to refuse further properties. Whether structs that say nothing admit further
properties decides about these only: it never decides whether a shape has a schema, and the schema
that refuses them accepts no value that the other one does not accept.
-/

namespace ShapeSchema

namespace Schema

/-- Schemas that list the same properties, of which the first one says at least as much. -/
structure IsLoosening (d e : Document) : Prop where
  tightens : Tightens d e
  listed : ∀ {key}, (Tagging.propertiesOf d).has key → (Tagging.propertiesOf e).has key

namespace IsLoosening

variable {d e : Document}

theorem has_eq (h : IsLoosening d e) (key : String) :
    (Tagging.propertiesOf d).has key = (Tagging.propertiesOf e).has key :=
  Bool.eq_iff_iff.mpr ⟨h.listed, h.tightens.properties⟩

theorem bounded (h : IsLoosening d e) (hd : IsUnbounded d) (c : Constraints) :
    IsLoosening (c.bounded d) (c.bounded e) where
  tightens := h.tightens.bounded hd c
  listed {key} hhas := by
    rw [propertiesOf_bounded] at hhas ⊢
    exact h.listed hhas

end IsLoosening

structure IsFreeLoosening (d e : Document) : Prop extends IsLoosening d e where
  unbounded : IsUnbounded d

namespace IsFreeLoosening

variable {d e : Document}

theorem of_outdoes (h : Outdoes d e)
    (hlisted : ∀ {key}, (Tagging.propertiesOf d).has key → (Tagging.propertiesOf e).has key) :
    IsFreeLoosening d e :=
  ⟨⟨h.tightens, hlisted⟩, h.unbounded⟩

theorem of_unlisted (h : Outdoes d e) (hnone : d.get? "properties" = none) :
    IsFreeLoosening d e := by
  refine .of_outdoes h fun {key} hhas => ?_
  rw [propertiesOf_of_none hnone] at hhas
  simp [Document.has] at hhas

theorem of_self (h : Outdoes d d) : IsFreeLoosening d d :=
  .of_outdoes h fun hhas => hhas

theorem outdoes (h : IsFreeLoosening d e) : Outdoes d e :=
  ⟨h.tightens, h.unbounded⟩

theorem widened (h : IsFreeLoosening d e) :
    SameOutcome IsFreeLoosening (widenNullable d) (widenNullable e) := by
  obtain ⟨d', hokd, hd⟩ := widenNullable_of_isTyped h.tightens.left
  obtain ⟨e', hoke, he⟩ := widenNullable_of_isTyped h.tightens.right
  obtain ⟨_, hok, houtdoes⟩ := h.outdoes.widened d' hokd
  cases hoke.symm.trans hok
  rw [hokd, hoke]
  refine .ok (.of_outdoes houtdoes fun {key} hhas => ?_)
  rw [hd.propertiesOf_eq] at hhas
  rw [he.propertiesOf_eq]
  exact h.listed hhas

theorem map (key : PrimitiveKind) (h : IsFreeLoosening d e) :
    SameOutcome IsFreeLoosening (map key (.obj d)) (map key (.obj e)) := by
  have hsurvives := survives_map key h.outdoes.within
  unfold Schema.map at hsurvives ⊢
  by_cases hkey : key.isText
  · simp only [if_pos hkey] at hsurvives ⊢
    obtain ⟨_, hok, houtdoes⟩ := hsurvives _ rfl
    cases hok
    exact .ok (.of_unlisted houtdoes (by simp [Document.get?_cons]))
  · simp only [if_neg hkey]
    exact .error _

theorem objectSchema {ps qs : List Context.Property} {x y : Json}
    (h : List.Forall₂ (Context.Property.Corresponds IsLoosening) ps qs)
    (hfurther : FurtherWithin x y) :
    IsFreeLoosening (Context.objectSchema ps x) (Context.objectSchema qs y) := by
  have hwithin : List.Forall₂ (Context.Property.Corresponds Within) ps qs :=
    h.imp fun _ _ h => ⟨h.key, h.required, h.schema.tightens.within⟩
  refine .of_outdoes (outdoes_objectSchema hwithin hfurther) fun {key} hhas => ?_
  have hkeys : ps.map (·.key) = qs.map (·.key) := by
    clear hwithin hhas
    induction h with
    | nil => rfl
    | cons hhead _ ih => rw [List.map_cons, List.map_cons, hhead.key, ih]
  simp only [propertiesOf_objectSchema, Document.has_eq_mem, Document.keys, List.map_map,
    Function.comp_def] at hhas ⊢
  exact hkeys ▸ hhas

end IsFreeLoosening

section Unions

open Tagging

variable {v w : EncodedVariant}

/-- Two variants whose payloads list the same properties can be encoded, or cannot for the same
reason. -/
theorem sameOutcome_encode (tagging : Tagging)
    (h : EncodedVariant.Corresponds IsLoosening v w) :
    SameOutcome HeldWithin (tagging.encode v) (tagging.encode w) := by
  obtain ⟨key, schema, mergeable⟩ := v
  obtain ⟨_, schema', _⟩ := w
  obtain ⟨rfl, rfl, hschema⟩ := h
  have htightens : EncodedVariant.Corresponds Tightens ⟨key, schema, mergeable⟩
      ⟨key, schema', mergeable⟩ := by
    refine ⟨rfl, rfl, ?_⟩
    cases hschema with
    | none => exact .none
    | some hdoc =>
      obtain ⟨d, e, rfl, rfl, hloosening⟩ := hdoc
      exact .some ⟨d, e, rfl, rfl, hloosening.tightens⟩
  refine .of_survives (survives_encode tagging htightens) fun defect hdefect => ?_
  -- only a tag that is merged into the payload can fail
  cases tagging with
  | internal tag =>
    cases hschema with
    | none => cases hdefect
    | some hdoc =>
      obtain ⟨d, e, rfl, rfl, hloosening⟩ := hdoc
      simp only [encode, mergeTag_of_isTyped hloosening.tightens.left,
        mergeTag_of_isTyped hloosening.tightens.right, hloosening.has_eq tag] at hdefect ⊢
      split at hdefect
      · next hmergeable =>
        split at hdefect
        · next htag => simpa only [if_pos hmergeable, if_pos htag] using hdefect
        · cases hdefect
      · next hmergeable => simpa only [if_neg hmergeable] using hdefect
  | external | adjacent | untagged => cases hdefect

theorem sameOutcome_encodeUnion (tagging : Tagging) {vs ws : List EncodedVariant}
    (h : List.Forall₂ (EncodedVariant.Corresponds IsLoosening) vs ws) :
    SameOutcome IsFreeLoosening (tagging.encodeUnion vs) (tagging.encodeUnion ws) := by
  have hempty : vs.isEmpty = ws.isEmpty := by
    cases h <;> rfl
  unfold encodeUnion
  rw [hempty]
  refine .bind (.refl tagging.check) fun _ _ _ => ?_
  split
  · exact .error _
  · refine .bind (.mapM (h.imp fun _ _ => sameOutcome_encode tagging)) fun xs ys hheld => .ok ?_
    exact .of_unlisted (outdoes_union hheld) (by simp [Document.get?_cons])

end Unions
end Schema

open Schema

namespace Context

theorem sameOutcome_applyBounds (a b : Context) (hgraph : a.graph = b.graph) (shape : Shape)
    (c : Constraints) {d e : Document} (h : IsFreeLoosening d e) :
    SameOutcome IsLoosening (a.applyBounds shape c d) (b.applyBounds shape c e) := by
  unfold applyBounds
  rw [hgraph]
  split
  · split
    · exact .ok (h.toIsLoosening.bounded h.unbounded c)
    · exact .error _
  · exact .error _

variable (graph : Graph)

/-- The rules of the derivation keep loosenings, if only the first context refuses further
properties where a struct says nothing. -/
theorem respects_isLoosening :
    Coupling.sameOutcome.Respects ⟨graph, true⟩ ⟨graph, false⟩ Eq IsFreeLoosening IsLoosening
      FurtherWithin where
  ordinary _ := trivial
  optional h := by rw [h]
  mergeable h := by rw [h]; rfl
  inner h := h.toIsLoosening
  bounded {s t p q d e c} _ hshape hdoc hat := by
    obtain rfl : p = q := hat
    rw [hshape]
    exact (sameOutcome_applyBounds _ _ rfl t c hdoc).located p
  widened {p q d e} hdoc hat := by
    obtain rfl : p = q := hat
    exact hdoc.widened.located p
  mapped {p q d e} key hdoc hat := by
    obtain rfl : p = q := hat
    exact (hdoc.map key).located p
  primitive kind := .of_self (outdoes_primitive kind)
  anyObject := .of_self outdoes_anyObject
  objectId := .of_self outdoes_objectId
  unit := .of_self outdoes_unit
  array h := .of_unlisted (outdoes_array h.outdoes.within) (by simp [array, Document.get?_cons])
  set h := .of_unlisted (outdoes_set h.outdoes.within) (by simp [Schema.set, Document.get?_cons])
  fixedArray length h := .of_unlisted (outdoes_fixedArray length h.outdoes.within)
    (by simp [fixedArray, Document.get?_cons])
  tuple h := .of_unlisted (outdoes_tuple (h.imp fun _ _ h => h.outdoes.within))
    (by simp [tuple, Document.get?_cons])
  unspecified reading value h := by simp [acceptsFurther] at h
  allowed _ _ _ h := h
  values h reading value hfurther := h.outdoes.within reading value hfurther
  object h _ hfurther := .objectSchema h hfurther
  union {vs ws p q} tagging h hat := by
    obtain rfl : p = q := hat
    exact (sameOutcome_encodeUnion tagging h).located p

/-- Refusing further properties or not, the derivation expands and cuts the same nodes. -/
theorem sameOutcome_walk (active : List Shape) (shape : Shape) (place : Location) :
    SameOutcome IsFreeLoosening (walk ⟨graph, true⟩ Policy.plain active shape place)
      (walk ⟨graph, false⟩ Policy.plain active shape place) := by
  have hrules := respects_isLoosening graph
  refine hrules.walk rfl (fun node => ?_) (fun _ _ _ hbody => hbody) active shape place place rfl
  exact .ok (.of_self (outdoes_cutSchema_self _ node))

theorem sameOutcome_derive? (shape : Shape) (c : Constraints) :
    SameOutcome IsLoosening (derive? ⟨graph, true⟩ shape c) (derive? ⟨graph, false⟩ shape c) := by
  refine (respects_isLoosening graph).constrained (fun p q hat => ?_) rfl c rfl
  obtain rfl : p = q := hat
  exact sameOutcome_walk graph [] shape p

end Context

/-- Refusing further properties does not change whether a root has a schema nor how it fails, and
the schema that refuses them accepts no more values than the one that admits them. -/
theorem Graph.derive_strict_within (graph : Graph) (settings : DeriveSettings) (root : Shape)
    (c : Constraints) (bindings : Bindings) :
    SameOutcome Within
      (graph.derive { settings with strictObjects := true } root c bindings)
      (graph.derive { settings with strictObjects := false } root c bindings) := by
  obtain ⟨⟨shape, other⟩, hsubst⟩ : ∃ result, graph.substitute bindings root = result := ⟨_, rfl⟩
  rw [derive_eq hsubst, derive_eq hsubst]
  have hoff := Context.sameOutcome_derive? other shape c
  exact hoff.imp fun _ _ hloosening => hloosening.tightens.within

end ShapeSchema
