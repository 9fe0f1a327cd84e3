import ShapeSchema.Shape.Walk

/-!
The shapes that a shape holds: what holds of all parts of a payload, a variant or a declared type,
said of their own members.
-/

namespace ShapeSchema

variable {P : Shape → Prop}

def EachPart (P : Shape → Prop) (parts : List (List Step × Shape)) : Prop :=
  ∀ steps part, (steps, part) ∈ parts → P part

theorem eachPart_congr {Q : Shape → Prop} {parts : List (List Step × Shape)}
    (h : ∀ steps part, (steps, part) ∈ parts → (P part ↔ Q part)) :
    EachPart P parts ↔ EachPart Q parts :=
  forall₃_congr h

theorem eachPart_nil : EachPart P [] := by
  simp [EachPart]

theorem eachPart_singleton {steps : List Step} {shape : Shape} :
    EachPart P [(steps, shape)] ↔ P shape := by
  simp [EachPart]

theorem eachPart_append {parts more : List (List Step × Shape)} :
    EachPart P (parts ++ more) ↔ EachPart P parts ∧ EachPart P more := by
  simp only [EachPart, List.mem_append]
  exact ⟨fun h => ⟨fun s p hp => h s p (.inl hp), fun s p hp => h s p (.inr hp)⟩,
    fun h s p hp => hp.elim (h.1 s p) (h.2 s p)⟩

theorem eachPart_tuple {elements : List Shape} :
    EachPart P (Payload.tuple elements).parts ↔ ∀ shape ∈ elements, P shape := by
  constructor
  · intro h shape hmem
    obtain ⟨position, hlt, rfl⟩ := List.mem_iff_getElem.mp hmem
    exact h [.index position] _ (List.mem_mapIdx.mpr ⟨position, hlt, rfl⟩)
  · intro h steps part hpart
    obtain ⟨position, hlt, heq⟩ := List.mem_mapIdx.mp hpart
    cases heq
    exact h _ (List.getElem_mem hlt)

theorem eachPart_fields {fields : List Field} :
    EachPart P (Payload.struct fields).parts ↔ ∀ field ∈ fields, P field.shape := by
  constructor
  · intro h field hmem
    exact h [.member field.name] _ (List.mem_map.mpr ⟨field, hmem, rfl⟩)
  · intro h steps part hpart
    obtain ⟨field, hmem, heq⟩ := List.mem_map.mp hpart
    cases heq
    exact h field hmem

theorem eachPart_variant {variant : Variant} :
    EachPart P variant.parts ↔ EachPart P variant.payload.parts := by
  constructor
  · intro h steps part hpart
    exact h _ part (List.mem_map.mpr ⟨(steps, part), hpart, rfl⟩)
  · intro h steps part hpart
    obtain ⟨⟨steps, part⟩, hmem, heq⟩ := List.mem_map.mp hpart
    cases heq
    exact h steps part hmem

theorem eachPart_struct {type : Struct} :
    EachPart P (Declaration.struct type).parts ↔
      (∀ field ∈ type.fields, P field.shape) ∧ EachPart P type.extra.parts := by
  rw [Declaration.parts, eachPart_append, eachPart_fields]

theorem eachPart_enum {type : Enum} :
    EachPart P (Declaration.enum type).parts ↔
      ∀ variant ∈ type.variants, EachPart P variant.payload.parts := by
  constructor
  · intro h variant hmem
    exact eachPart_variant.mp fun steps part hpart =>
      h steps part (List.mem_flatMap.mpr ⟨variant, hmem, hpart⟩)
  · intro h steps part hpart
    obtain ⟨variant, hmem, hpart⟩ := List.mem_flatMap.mp hpart
    exact eachPart_variant.mpr (h variant hmem) steps part hpart

def Payload.shapes (payload : Payload) : List Shape :=
  payload.parts.map Prod.snd

theorem Payload.shapes_tuple (elements : List Shape) :
    (Payload.tuple elements).shapes = elements := by
  apply List.ext_getElem
  · simp [shapes, parts]
  · intro position hposition hshape
    simp [shapes, parts]

theorem Payload.shapes_struct (fields : List Field) :
    (Payload.struct fields).shapes = fields.map Field.shape := by
  rw [shapes, parts, List.map_map]
  rfl

def Declaration.shapes (type : Declaration) : List Shape :=
  type.parts.map Prod.snd

theorem Declaration.shapes_struct (type : Struct) :
    (Declaration.struct type).shapes =
      type.fields.map Field.shape ++ type.extra.parts.map Prod.snd := by
  rw [shapes, parts, List.map_append, ← Payload.shapes_struct]
  rfl

theorem Declaration.shapes_enum (type : Enum) :
    (Declaration.enum type).shapes = type.variants.flatMap (·.payload.shapes) := by
  have hvariant : ∀ variant : Variant, variant.parts.map Prod.snd = variant.payload.shapes := by
    intro variant
    rw [Variant.parts, List.map_map]
    rfl
  rw [shapes, parts, List.map_flatMap, funext hvariant]

def Graph.shapesIn (graph : Graph) (shape : Shape) : List Shape :=
  (graph.parts shape).map Prod.snd

theorem Graph.mem_shapesIn {graph : Graph} {shape part : Shape} :
    part ∈ graph.shapesIn shape ↔ ∃ steps, (steps, part) ∈ graph.parts shape := by
  simp [shapesIn]

theorem Graph.eachPart_iff {graph : Graph} {shape : Shape} :
    EachPart P (graph.parts shape) ↔ ∀ part ∈ graph.shapesIn shape, P part := by
  constructor
  · intro h part hpart
    obtain ⟨steps, hmem⟩ := mem_shapesIn.mp hpart
    exact h steps part hmem
  · exact fun h steps part hmem => h part (mem_shapesIn.mpr ⟨steps, hmem⟩)

/-- What a shape reaches is the shape itself or reached from a part of it. -/
theorem Graph.Reaches.eq_or_part {graph : Graph} {shape target : Shape}
    (h : graph.Reaches shape target) :
    target = shape ∨
      ∃ steps part, (steps, part) ∈ graph.parts shape ∧ graph.Reaches part target := by
  obtain ⟨passed, steps, hwalk⟩ := h
  cases hwalk with
  | stay => exact .inl rfl
  | go hpart hrest => exact .inr ⟨_, _, hpart, _, _, hrest⟩

/-- What holds of a shape and passes to parts holds of all that the shape reaches. -/
theorem Graph.Reaches.part_induction {graph : Graph} {root target : Shape}
    (hreaches : graph.Reaches root target) (hroot : P root)
    (hpart : ∀ s, P s → EachPart P (graph.parts s)) : P target := by
  obtain ⟨passed, steps, hwalk⟩ := hreaches
  induction hwalk with
  | stay shape => exact hroot
  | go hmem _ ih => exact ih (hpart _ hroot _ _ hmem)

theorem Graph.Reaches.mem_of_closed {graph : Graph} {root target : Shape} {nodes : List Shape}
    (hreaches : graph.Reaches root target) (hroot : root ∈ nodes)
    (hnodes : ∀ node ∈ nodes, ∀ part ∈ graph.parts node, part.2 ∈ nodes) : target ∈ nodes :=
  hreaches.part_induction (P := (· ∈ nodes)) hroot fun node hnode steps part hpart =>
    hnodes node hnode (steps, part) hpart

end ShapeSchema
