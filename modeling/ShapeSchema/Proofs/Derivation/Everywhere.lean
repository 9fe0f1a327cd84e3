import ShapeSchema.Proofs.Derivation.Bounds
import ShapeSchema.Proofs.Derivation.Optionality
import ShapeSchema.Proofs.WellFormed.Everywhere

/-!
What holds everywhere in a derived schema. A property of single schemas that is about property keys,
and that constraints settle where they stand, holds everywhere in the schema of a shape exactly if
the keys and the constraints of all declared types that the shape reaches are in order: every one of
them is expanded somewhere, and what is cut is a placeholder without keys.
-/

namespace ShapeSchema

section Subjects

variable {P : Shape → Constraints → Prop}

def EachConstrained (P : Shape → Constraints → Prop) (subjects : List (List Step × Subject)) :
    Prop :=
  ∀ steps part set, (steps, .constrained part set) ∈ subjects → P part set

theorem eachConstrained_nil : EachConstrained P [] := by
  simp [EachConstrained]

theorem eachConstrained_singleton {steps : List Step} {shape : Shape} {c : Constraints} :
    EachConstrained P [(steps, .constrained shape c)] ↔ P shape c := by
  constructor
  · intro h
    exact h steps shape c List.mem_cons_self
  · intro h other part set hsubject
    cases List.mem_singleton.mp hsubject
    exact h

theorem eachConstrained_fields {fields : List Field} :
    EachConstrained P (fields.map Field.subject) ↔
      ∀ field ∈ fields, P field.shape field.constraints := by
  constructor
  · intro h field hmem
    exact h _ _ _ (List.mem_map.mpr ⟨field, hmem, rfl⟩)
  · intro h steps part set hsubject
    obtain ⟨field, hmem, heq⟩ := List.mem_map.mp hsubject
    cases heq
    exact h field hmem

theorem eachConstrained_variant {variant : Variant} :
    EachConstrained P variant.subjects ↔
      EachConstrained P (variant.payload.subjects variant.constraints) := by
  constructor
  · intro h steps part set hsubject
    apply h (.member variant.name :: steps) part set
    exact List.mem_cons_of_mem _ (List.mem_map.mpr ⟨_, hsubject, rfl⟩)
  · intro h steps part set hsubject
    rcases List.mem_cons.mp hsubject with heq | hsubject
    · cases heq
    · obtain ⟨⟨inside, subject⟩, hmem, heq⟩ := List.mem_map.mp hsubject
      cases heq
      exact h inside part set hmem

theorem eachConstrained_enum {type : Enum} :
    EachConstrained P (Declaration.enum type).subjects ↔
      ∀ variant ∈ type.variants,
        EachConstrained P (variant.payload.subjects variant.constraints) := by
  constructor
  · intro h variant hmem
    rw [← eachConstrained_variant]
    intro steps part set hsubject
    exact h steps part set (List.mem_flatMap.mpr ⟨variant, hmem, hsubject⟩)
  · intro h steps part set hsubject
    obtain ⟨variant, hmem, hsubject⟩ := List.mem_flatMap.mp hsubject
    exact eachConstrained_variant.mpr (h variant hmem) steps part set hsubject

/-- Only declared types have constrained shapes among their subjects. -/
theorem Graph.eachConstrained_of_not_declared {graph : Graph} {shape : Shape}
    (hother : ∀ index, shape ≠ .declared index) : EachConstrained P (graph.subjects shape) := by
  intro steps part set hsubject
  obtain ⟨index, hdeclared⟩ := declared_of_mem_subjects hsubject
  exact absurd hdeclared (hother index)

theorem Graph.eachConstrained_declared {graph : Graph} {index : Nat} {type : Declaration}
    (hfound : graph.declaration? index = some type) :
    EachConstrained P (graph.subjects (.declared index)) ↔ EachConstrained P type.subjects := by
  have hsubjects : graph.subjects (.declared index) =
      ([], .shape (.declared index)) :: type.subjects := by
    simp [Graph.subjects, hfound]
  rw [hsubjects]
  constructor
  · intro h steps part set hsubject
    exact h steps part set (List.mem_cons_of_mem _ hsubject)
  · intro h steps part set hsubject
    rcases List.mem_cons.mp hsubject with heq | hsubject
    · cases heq
    · exact h steps part set hsubject

end Subjects

theorem forall_mem_iff_of_forall₂ {α β : Type} {R : α → β → Prop} {P : α → Prop} {Q : β → Prop}
    {xs : List α} {ys : List β} (h : List.Forall₂ R xs ys)
    (hR : ∀ x ∈ xs, ∀ y, R x y → (P x ↔ Q y)) : (∀ x ∈ xs, P x) ↔ ∀ y ∈ ys, Q y := by
  induction h with
  | nil => simp
  | @cons x y _ _ hxy _ ih =>
    obtain ⟨hx, hxs⟩ := List.forall_mem_cons.mp hR
    rw [List.forall_mem_cons, List.forall_mem_cons, hx y hxy, ih hxs]

def Declaration.propertyKeys : Declaration → List String
  | struct type => fieldKeys type.renameAll type.fields
  | tuple _ => []
  | enum type => type.variants.flatMap fun variant =>
    type.tagging.ownKeys (variantKey variant.name variant.constraints.rename type.renameAll) ++
      variant.payload.keys fun _ => []

namespace Graph

variable {graph : Graph} {active : List Shape} {shape : Shape}

/-- The property keys that the schema of a shape lists by itself, those of its parts aside. -/
def propertyKeys (graph : Graph) : Shape → List String
  | .declared index => ((graph.declaration? index).map Declaration.propertyKeys).getD []
  | _ => []

/-- Whether something holds of all that a shape reaches past some nodes. -/
def EachReached (graph : Graph) (R : Shape → Prop) (active : List Shape) (shape : Shape) : Prop :=
  ∀ target, graph.ReachesAvoiding active shape target → R target

variable {R : Shape → Prop}

theorem eachReached_of_not_mem (hmem : shape ∉ active) :
    graph.EachReached R active shape ↔
      EachPart (graph.EachReached R active) (graph.parts shape) ∧ R shape := by
  constructor
  · intro h
    constructor
    · intro steps part hpart target hreaches
      exact h target (.go hmem hpart hreaches)
    · exact h shape (.stay hmem)
  · rintro ⟨hparts, hown⟩ target hreaches
    cases hreaches with
    | stay => exact hown
    | go _ hpart hrest => exact hparts _ _ hpart target hrest

/-- Walks that come back to the shape need not be looked at. -/
theorem eachReached_iff_below (hmem : shape ∉ active) :
    graph.EachReached R active shape ↔
      EachPart (graph.EachReached R (shape :: active)) (graph.parts shape) ∧ R shape := by
  constructor
  · intro h
    constructor
    · intro steps part hpart target hreaches
      exact h target (.go hmem hpart (hreaches.mono (List.subset_cons_self shape active)))
    · exact h shape (.stay hmem)
  · rintro ⟨hparts, hown⟩ target hreaches
    -- what a walk finds after it has come back is found from its last visit on
    rcases hreaches.last_visit shape with hrest | rfl | ⟨steps, part, hpart, hrest⟩
    · exact absurd List.mem_cons_self hrest.not_mem
    · exact hown
    · exact hparts steps part hpart target hrest

def InOrder (graph : Graph) (Q : String → Prop) (C : Shape → Constraints → Prop) (shape : Shape) :
    Prop :=
  EachConstrained C (graph.subjects shape) ∧ ∀ key ∈ graph.propertyKeys shape, Q key

/-- Only declared types have keys and constraints. -/
theorem inOrder_of_not_declared {Q : String → Prop} {C : Shape → Constraints → Prop}
    (hother : ∀ index, shape ≠ .declared index) : graph.InOrder Q C shape := by
  refine ⟨eachConstrained_of_not_declared hother, ?_⟩
  cases shape with
  | declared index => exact absurd rfl (hother index)
  | _ => simp [propertyKeys]

end Graph

open Schema

namespace Context

/-- Whether no wrapper of a number is being expanded. -/
def IsOpen (active : List Shape) (shape : Shape) (_ : Constraints) : Prop :=
  ∀ kind, shape.unwrapped = .primitive kind → ∀ node ∈ shape.opened, node ∉ active

/-- Whether the schema of a shape has a property everywhere while some nodes are being expanded. -/
def HasEverywhere (context : Context) (P : Document → Prop) (active : List Shape) (shape : Shape) :
    Prop :=
  ∀ place doc, context.walk Policy.plain active shape place = .ok doc → Everywhere P doc

/-- Whether a property of schemas is settled by property keys, and by a condition on constraints
where they stand. -/
structure IsSettledBy (context : Context) (P : Document → Prop) (Q : String → Prop)
    (C : Shape → Constraints → Prop) : Prop extends ReadsKeys P Q where
  primitive : ∀ kind, Everywhere P (primitive kind)
  constrained : ∀ {active : List Shape} {shape : Shape} {c : Constraints} {place : Location}
    {doc : Document}, IsOpen active shape c →
      context.constrained (context.walk Policy.plain active) shape c place = .ok doc →
        (Everywhere P doc ↔ context.HasEverywhere P active shape ∧ C shape c)

variable {context : Context} {active : List Shape} {shape : Shape} {place : Location}
  {P : Document → Prop}

theorem hasEverywhere_iff {doc : Document}
    (hdoc : context.walk Policy.plain active shape place = .ok doc) :
    context.HasEverywhere P active shape ↔ Everywhere P doc := by
  constructor
  · intro h
    exact h place doc hdoc
  · intro h there other hother
    obtain ⟨_, hsame, rfl⟩ := context.plain_there active shape place there doc hdoc
    cases hsame.symm.trans hother
    exact h

theorem everywhere_elements {position : Nat} {shapes : List Shape} {items : List Document}
    (hitems : elements (context.walk Policy.plain active) place position shapes = .ok items) :
    (∀ item ∈ items, Everywhere P item) ↔
      ∀ shape ∈ shapes, context.HasEverywhere P active shape := by
  induction shapes generalizing position items with
  | nil =>
    cases hitems
    simp
  | cons shape rest ih =>
    obtain ⟨item, hitem, hitems⟩ := bind_eq_ok.mp hitems
    obtain ⟨more, hmore, hitems⟩ := bind_eq_ok.mp hitems
    cases hitems
    rw [List.forall_mem_cons, List.forall_mem_cons, ih hmore, hasEverywhere_iff hitem]

namespace IsSettledBy

variable {Q : String → Prop} {C : Shape → Constraints → Prop} (hP : context.IsSettledBy P Q C)
include hP

theorem everywhere_structSchema {fields : List Field} {rule : Option RenameRule} {extra : Extra}
    {doc : Document} (hopen : ∀ field ∈ fields, IsOpen active field.shape field.constraints)
    (hdoc : context.structSchema (context.walk Policy.plain active) fields rule extra place =
      .ok doc) :
    Everywhere P doc ↔ ((∀ field ∈ fields, context.HasEverywhere P active field.shape) ∧
      EachPart (context.HasEverywhere P active) extra.parts) ∧
        (∀ field ∈ fields, C field.shape field.constraints) ∧
          ∀ key ∈ fieldKeys rule fields, Q key := by
  obtain ⟨listed, hlisted, hdoc⟩ := bind_eq_ok.mp hdoc
  obtain ⟨further, hfurther, hdoc⟩ := bind_eq_ok.mp hdoc
  cases hdoc
  obtain ⟨_, hbecome⟩ := context.properties_eq_ok.mp hlisted
  have hproperties : (∀ p ∈ listed, Q p.key ∧ Everywhere P p.schema) ↔
      ∀ field ∈ fields, Q (fieldKey field.name field.constraints.rename rule) ∧
        context.HasEverywhere P active field.shape ∧ C field.shape field.constraints := by
    symm
    apply forall_mem_iff_of_forall₂ hbecome
    intro field hmem property hproperty
    rw [hproperty.key, ← hP.constrained (hopen field hmem)
      (context.constrained_eq_ok.mpr hproperty.schema)]
  have hextra : HeldEverywhere P "additionalProperties" further ↔
      EachPart (context.HasEverywhere P active) extra.parts := by
    cases extra with
    | values shape =>
      obtain ⟨inner, hinner, hfurther⟩ := bind_eq_ok.mp hfurther
      cases hfurther
      rw [heldEverywhere_schema_iff (.inr rfl), Extra.parts, eachPart_singleton,
        hasEverywhere_iff hinner]
    | unspecified | allowed =>
      cases hfurther
      exact iff_of_true heldEverywhere_bool eachPart_nil
  have hkeys : (∀ key ∈ fieldKeys rule fields, Q key) ↔
      ∀ field ∈ fields, Q (fieldKey field.name field.constraints.rename rule) :=
    List.forall_mem_map
  rw [hP.everywhere_objectSchema, hproperties, hextra, hkeys, forall₂_and, forall₂_and]
  tauto

theorem everywhere_tupleSchema {shapes : List Shape} {doc : Document}
    (hdoc : tupleSchema (context.walk Policy.plain active) shapes place = .ok doc) :
    Everywhere P doc ↔ ∀ shape ∈ shapes, context.HasEverywhere P active shape := by
  obtain ⟨items, hitems, hdoc⟩ := bind_eq_ok.mp hdoc
  cases hdoc
  rw [hP.everywhere_tuple, everywhere_elements hitems]

theorem everywhere_payloadSchema {variant : Variant} {payload? : Option Document}
    (hopen : EachConstrained (IsOpen active) (variant.payload.subjects variant.constraints))
    (hpayload : context.payloadSchema (context.walk Policy.plain active) variant place =
      .ok payload?) :
    (∀ doc, payload? = some doc → Everywhere P doc) ↔
      EachPart (context.HasEverywhere P active) variant.payload.parts ∧
        EachConstrained C (variant.payload.subjects variant.constraints) ∧
          ∀ key ∈ variant.payload.keys (fun _ => []), Q key := by
  obtain ⟨name, payload, c, hname⟩ := variant
  cases payload with
  | unit =>
    cases hpayload
    simp [Payload.parts, Payload.subjects, Payload.keys, eachPart_nil, eachConstrained_nil]
  | newtype shape =>
    obtain ⟨doc, hdoc, rfl⟩ := map_eq_ok.mp hpayload
    have hinner := hP.constrained (eachConstrained_singleton.mp hopen) hdoc
    rw [Payload.parts, Payload.subjects, eachPart_singleton, eachConstrained_singleton,
      ← and_assoc, ← hinner]
    simp [Payload.keys]
  | tuple shapes =>
    obtain ⟨doc, hdoc, rfl⟩ := map_eq_ok.mp hpayload
    rw [eachPart_tuple, ← hP.everywhere_tupleSchema hdoc]
    simp [Payload.subjects, Payload.keys, eachConstrained_nil]
  | struct fields =>
    obtain ⟨doc, hdoc, rfl⟩ := map_eq_ok.mp hpayload
    have hinner := hP.everywhere_structSchema (eachConstrained_fields.mp hopen) hdoc
    rw [eachPart_fields, Payload.subjects, eachConstrained_fields]
    simpa [Extra.parts, eachPart_nil, Payload.keys] using hinner

theorem everywhere_enumSchema {type : Enum} {doc : Document}
    (hopen : EachConstrained (IsOpen active) (Declaration.enum type).subjects)
    (hdoc : context.enumSchema (context.walk Policy.plain active) type place = .ok doc) :
    Everywhere P doc ↔
      EachPart (context.HasEverywhere P active) (Declaration.enum type).parts ∧
        EachConstrained C (Declaration.enum type).subjects ∧
          ∀ key ∈ (Declaration.enum type).propertyKeys, Q key := by
  let Keeps : Variant → Document → Prop := fun variant alternative =>
    EachConstrained (IsOpen active) (variant.payload.subjects variant.constraints) →
      ((EachPart (context.HasEverywhere P active) variant.payload.parts ∧
        EachConstrained C (variant.payload.subjects variant.constraints)) ∧
          (∀ key ∈ type.tagging.ownKeys
              (variantKey variant.name variant.constraints.rename type.renameAll) ++
            variant.payload.keys (fun _ => []), Q key) ↔ Everywhere P alternative)
  obtain ⟨alternatives, rfl, hkeeps⟩ : ∃ alternatives : List Document,
      doc = [("anyOf", .arr (alternatives.map .obj))] ∧
        List.Forall₂ Keeps type.variants alternatives := by
    apply alternatives_of_enumSchema _ hdoc
    intro variant encoded schema _ hvariant hschema
    obtain ⟨_, payload?, hpayload, rfl⟩ := context.encodedVariant_eq_ok.mp hvariant
    have hplain := isPlainObject_payloadSchema
      (fun hobject hdoc => isPlainObject_payload hobject hdoc) hpayload
    obtain ⟨alternative, rfl, halternative⟩ := hP.everywhere_encode hplain hschema
    refine ⟨alternative, rfl, fun hfree => ?_⟩
    rw [halternative, hP.everywhere_payloadSchema hfree hpayload, List.forall_mem_append]
    tauto
  have hkeys : (∀ key ∈ (Declaration.enum type).propertyKeys, Q key) ↔
      ∀ variant ∈ type.variants, ∀ key ∈ type.tagging.ownKeys
          (variantKey variant.name variant.constraints.rename type.renameAll) ++
        variant.payload.keys (fun _ => []), Q key :=
    List.forall_mem_flatMap
  rw [hP.everywhere_union, eachPart_enum, eachConstrained_enum, hkeys, ← and_assoc, ← forall₂_and,
    ← forall₂_and]
  symm
  apply forall_mem_iff_of_forall₂ hkeeps
  intro variant hmem alternative hkept
  exact hkept (eachConstrained_enum.mp hopen variant hmem)

theorem everywhere_declarationSchema {type : Declaration} {doc : Document}
    (hopen : EachConstrained (IsOpen active) type.subjects)
    (hdoc : context.declarationSchema (context.walk Policy.plain active) type place = .ok doc) :
    Everywhere P doc ↔ EachPart (context.HasEverywhere P active) type.parts ∧
      EachConstrained C type.subjects ∧ ∀ key ∈ type.propertyKeys, Q key := by
  cases type with
  | struct type =>
    rw [hP.everywhere_structSchema (eachConstrained_fields.mp hopen) hdoc, eachPart_struct,
      Declaration.subjects, eachConstrained_fields]
    rfl
  | tuple type =>
    rw [hP.everywhere_tupleSchema hdoc, Declaration.parts, eachPart_tuple]
    exact (and_iff_left ⟨eachConstrained_nil, by simp [Declaration.propertyKeys]⟩).symm
  | enum type => exact hP.everywhere_enumSchema hopen hdoc

/-- One level has the property if the schemas of the parts have it, and the keys and constraints of
the shape are in order. -/
theorem everywhere_level {doc : Document}
    (hopen : EachConstrained (IsOpen active) (context.graph.subjects shape))
    (hdoc : context.level (context.walk Policy.plain active) shape place = .ok doc) :
    Everywhere P doc ↔
      EachPart (context.HasEverywhere P active) (context.graph.parts shape) ∧
        context.graph.InOrder Q C shape := by
  have hnone : (∀ index, shape ≠ .declared index) →
      (EachPart (context.HasEverywhere P active) (context.graph.parts shape) ↔
        EachPart (context.HasEverywhere P active) (context.graph.parts shape) ∧
          context.graph.InOrder Q C shape) :=
    fun hother => (and_iff_left (Graph.inOrder_of_not_declared hother)).symm
  cases shape with
  | declared index =>
    cases hfound : context.graph.declaration? index with
    | none =>
      simp only [level, hfound] at hdoc
      cases hdoc
    | some type =>
      simp only [level, hfound] at hdoc
      rw [Graph.eachConstrained_declared hfound] at hopen
      rw [Graph.InOrder, Graph.eachConstrained_declared hfound,
        hP.everywhere_declarationSchema hopen hdoc]
      simp [Graph.parts, Graph.propertyKeys, hfound]
  | primitive kind =>
    cases hdoc
    rw [← hnone (by simp)]
    exact iff_of_true (hP.primitive kind) eachPart_nil
  | optional label inner =>
    obtain ⟨doc, hinner, hwidened⟩ := bind_eq_ok.mp hdoc
    have hnull := hP.everywhere_widened (isFresh_of_plain hinner).typed
      (located_eq_ok.mp hwidened)
    rw [← hnone (by simp), hnull, Graph.parts, eachPart_singleton, hasEverywhere_iff hinner]
  | newtype label name inner =>
    rw [← hnone (by simp), Graph.parts, eachPart_singleton, hasEverywhere_iff hdoc]
  | array label element =>
    obtain ⟨items, hitems, hdoc⟩ := bind_eq_ok.mp hdoc
    cases hdoc
    rw [← hnone (by simp), hP.everywhere_array, Graph.parts, eachPart_singleton,
      hasEverywhere_iff hitems]
  | set label element =>
    obtain ⟨items, hitems, hdoc⟩ := bind_eq_ok.mp hdoc
    cases hdoc
    rw [← hnone (by simp), hP.everywhere_set, Graph.parts, eachPart_singleton,
      hasEverywhere_iff hitems]
  | fixedArray label element length =>
    obtain ⟨items, hitems, hdoc⟩ := bind_eq_ok.mp hdoc
    cases hdoc
    rw [← hnone (by simp), hP.everywhere_fixedArray, Graph.parts, eachPart_singleton,
      hasEverywhere_iff hitems]
  | map label key value =>
    obtain ⟨values, hvalues, hdoc⟩ := bind_eq_ok.mp hdoc
    rw [← hnone (by simp), hP.everywhere_map (located_eq_ok.mp hdoc), Graph.parts,
      eachPart_singleton, hasEverywhere_iff hvalues]
  | document | objectId =>
    cases hdoc
    rw [← hnone (by simp)]
    exact iff_of_true (hP.everywhere_kind _ (by simp)) eachPart_nil
  | unit =>
    cases hdoc
    rw [← hnone (by simp)]
    exact iff_of_true hP.everywhere_unit eachPart_nil
  | generic | raw => cases hdoc

theorem everywhere_cutSchema (shape : Shape) : Everywhere P (context.cutSchema shape) := by
  rcases context.cutSchema_cases shape with heq | ⟨_, _, ⟨_, _, heq⟩ | ⟨_, _, heq⟩⟩ <;> rw [heq]
  · exact hP.everywhere_nil
  · exact hP.everywhere_kind _ (by simp)
  · exact hP.everywhere_kind _ (by simp)

/-- The same where the parts have been looked at and all nodes being expanded lead to the shape. -/
theorem everywhere_level_of_parts {doc : Document}
    (hactive : ∀ node ∈ active, node.isNominal ∧ context.graph.Reaches node shape)
    (hparts : ∀ steps part, (steps, part) ∈ context.graph.parts shape →
      (∀ node ∈ active, node.isNominal ∧ context.graph.Reaches node part) →
        (context.HasEverywhere P active part ↔
          context.graph.EachReached (context.graph.InOrder Q C) active part))
    (hdoc : context.level (context.walk Policy.plain active) shape place = .ok doc) :
    Everywhere P doc ↔
      EachPart (context.graph.EachReached (context.graph.InOrder Q C) active)
        (context.graph.parts shape) ∧ context.graph.InOrder Q C shape := by
  have hopen : EachConstrained (IsOpen active) (context.graph.subjects shape) := by
    intro steps part set hsubject kind hunwrapped node hnode hmem
    exact Graph.not_mem_opened hsubject hunwrapped (hactive node hmem).2 hnode
  rw [hP.everywhere_level hopen hdoc]
  apply and_congr_left'
  apply eachPart_congr
  intro steps part hpart
  apply hparts steps part hpart
  intro node hmem
  exact ⟨(hactive node hmem).1, (hactive node hmem).2.trans (.of_mem_parts hpart)⟩

/-- A derivation has the property if all that it reaches past the nodes being expanded is in
order. -/
theorem hasEverywhere_iff_eachReached
    (hactive : ∀ node ∈ active, node.isNominal ∧ context.graph.Reaches node shape)
    (hderives : context.Derives active shape) :
    context.HasEverywhere P active shape ↔
      context.graph.EachReached (context.graph.InOrder Q C) active shape := by
  induction active, shape using context.graph.expansion_induction with
  | pass active shape hnominal ih =>
    obtain ⟨_, _, hderived⟩ := (derives_of_not_nominal hnominal).mp hderives
    obtain ⟨doc, hdoc⟩ := hderives
    have hfree : shape ∉ active := by
      intro hmem
      simp [(hactive shape hmem).1] at hnominal
    rw [hasEverywhere_iff hdoc, Graph.eachReached_of_not_mem hfree]
    rw [context.walk_of_not_nominal Policy.plain active .nowhere hnominal] at hdoc
    apply hP.everywhere_level_of_parts hactive _ hdoc
    intro steps part hpart hbelow
    exact ih steps part hpart hbelow (hderived steps part hpart)
  | cut active shape hnominal hmem =>
    constructor
    · intro _ target hreaches
      exact absurd hmem hreaches.not_mem
    · intro _ place doc hdoc
      rw [context.plain_of_mem place hnominal hmem] at hdoc
      cases hdoc
      exact hP.everywhere_cutSchema shape
  | expand active shape hnominal hmem ih =>
    obtain ⟨_, _, hderived⟩ := (derives_of_not_mem hnominal hmem).mp hderives
    obtain ⟨doc, hdoc⟩ := hderives
    have hnodes : ∀ node ∈ shape :: active,
        node.isNominal ∧ context.graph.Reaches node shape :=
      List.forall_mem_cons.mpr ⟨⟨hnominal, .refl _ shape⟩, hactive⟩
    rw [hasEverywhere_iff hdoc, Graph.eachReached_iff_below hmem]
    rw [context.plain_of_not_mem .nowhere hnominal hmem] at hdoc
    apply hP.everywhere_level_of_parts hnodes _ hdoc
    intro steps part hpart hbelow
    exact ih steps part hpart hbelow (hderived steps part hpart)

end IsSettledBy

end Context

/-- A derived schema has a property everywhere exactly if the constraints of the root settle it, and
the keys and constraints of everything that the root reaches are in order. -/
theorem Graph.everywhere_derive {graph other : Graph} {root shape : Shape} {bindings : Bindings}
    (hsubst : graph.substitute bindings root = (shape, other)) (settings : DeriveSettings)
    {P : Document → Prop} {Q : String → Prop} {C : Shape → Constraints → Prop}
    (hP : Context.IsSettledBy ⟨other, settings.strictObjects⟩ P Q C)
    {c : Constraints} {doc : Document} (hdoc : graph.derive settings root c bindings = .ok doc) :
    Everywhere P doc ↔ C shape c ∧ ∀ target, other.Reaches shape target →
      other.InOrder Q C target := by
  rw [derive_eq hsubst] at hdoc
  obtain ⟨_, hderives⟩ := Context.succeeds_derive?.mp ⟨doc, hdoc⟩
  have hopen : Context.IsOpen [] shape c := fun _ _ _ _ => List.not_mem_nil
  rw [hP.constrained hopen hdoc, hP.hasEverywhere_iff_eachReached (by simp) hderives, and_comm]
  apply and_congr_right'
  constructor
  · intro h target hreaches
    exact h target hreaches.avoiding_nil
  · intro h target hreaches
    exact h target hreaches.reaches

end ShapeSchema
