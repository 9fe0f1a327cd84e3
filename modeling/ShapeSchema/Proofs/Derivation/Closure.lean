import ShapeSchema.Proofs.Derivation.Coverage

/-!
Whether the types of a recursive family are accepted together. All of them are in order if one is
accepted as a root. What depends on the root is whether a tag is seen to meet a property of its
payload, since a payload that is cut lists no properties.
-/

namespace ShapeSchema

namespace Shape

def chain : Shape → List Shape
  | newtype label name inner => newtype label name inner :: inner.chain
  | shape => [shape]

theorem sizeOf_chain {shape node : Shape} (hnode : node ∈ shape.chain) :
    sizeOf node ≤ sizeOf shape := by
  induction shape with
  | newtype label name inner ih =>
    rcases List.mem_cons.mp hnode with rfl | hnode
    · exact Nat.le_refl _
    · have hle := ih hnode
      rw [newtype.sizeOf_spec]
      omega
  | _ => exact Nat.le_of_eq (congrArg sizeOf (List.mem_singleton.mp hnode))

theorem newtype_not_mem_chain (label : Nat) (name : String) (inner : Shape) :
    newtype label name inner ∉ inner.chain := by
  intro hnode
  have hle := sizeOf_chain hnode
  rw [newtype.sizeOf_spec] at hle
  omega

theorem declared_mem_chain {shape : Shape} {index : Nat} (hnode : declared index ∈ shape.chain) :
    shape.underlying = declared index := by
  induction shape with
  | newtype label name inner ih =>
    rcases List.mem_cons.mp hnode with heq | hnode
    · cases heq
    · exact ih hnode
  | _ => exact (List.mem_singleton.mp hnode).symm

end Shape

def Graph.structKeys (graph : Graph) (shape : Shape) : List String :=
  match shape.underlying with
  | .declared index =>
    match graph.declaration? index with
    | some (.struct type) => fieldKeys type.renameAll type.fields
    | _ => []
  | _ => []

namespace Context

variable {context : Context} {active : List Shape} {shape : Shape}

theorem propertiesOf_cutSchema (context : Context) (shape : Shape) :
    Tagging.propertiesOf (context.cutSchema shape) = [] := by
  rcases context.cutSchema_cases shape with heq | ⟨_, _, ⟨_, _, heq⟩ | ⟨_, _, heq⟩⟩ <;> rw [heq] <;>
    exact Schema.propertiesOf_of_none rfl

/-- The schema of a mergeable payload lists the properties of its struct and no others, unless it
is cut on the way down to it. -/
theorem listed_payload (hobject : context.isObjectPayload shape) {place : Location}
    {doc : Document} (hdoc : context.walk Policy.plain active shape place = .ok doc)
    (key : String) :
    ((Tagging.propertiesOf doc).has key → key ∈ context.graph.structKeys shape) ∧
      ((∀ node ∈ shape.chain, node ∉ active) → key ∈ context.graph.structKeys shape →
        (Tagging.propertiesOf doc).has key) := by
  induction shape generalizing active place with
  | newtype label name inner ih =>
    by_cases hmem : Shape.newtype label name inner ∈ active
    · rw [context.plain_of_mem place rfl hmem] at hdoc
      cases hdoc
      exact ⟨fun hhas => absurd hhas Bool.false_ne_true,
        fun hfresh => absurd hmem (hfresh _ List.mem_cons_self)⟩
    · rw [context.plain_of_not_mem place rfl hmem] at hdoc
      obtain ⟨hlisted, hexact⟩ := ih hobject hdoc
      refine ⟨hlisted, fun hfresh => hexact fun node hnode => ?_⟩
      refine List.not_mem_cons_of_ne_of_not_mem ?_ (hfresh node (List.mem_cons_of_mem _ hnode))
      rintro rfl
      exact Shape.newtype_not_mem_chain label name inner hnode
  | map label kind value ih =>
    rw [context.walk_of_not_nominal Policy.plain active place rfl] at hdoc
    obtain ⟨values, _, hdoc⟩ := bind_eq_ok.mp hdoc
    rw [located_eq_ok, Schema.map] at hdoc
    split at hdoc
    · cases hdoc
      exact ⟨fun hhas => absurd hhas Bool.false_ne_true,
        fun _ hkey => absurd hkey List.not_mem_nil⟩
    · cases hdoc
  | declared index =>
    obtain ⟨type, hfound⟩ := struct_of_isObjectPayload hobject
    have hkeys : context.graph.structKeys (.declared index) =
        fieldKeys type.renameAll type.fields := by
      simp [Graph.structKeys, Shape.underlying, hfound]
    by_cases hmem : Shape.declared index ∈ active
    · rw [context.plain_of_mem place rfl hmem] at hdoc
      cases hdoc
      rw [propertiesOf_cutSchema]
      exact ⟨fun hhas => absurd hhas Bool.false_ne_true,
        fun hfresh => absurd hmem (hfresh _ List.mem_cons_self)⟩
    · rw [context.plain_of_not_mem place rfl hmem] at hdoc
      simp only [level, hfound, declarationSchema] at hdoc
      obtain ⟨_, hlisted⟩ := context.listed_structSchema hdoc
      rw [hkeys, hlisted key]
      exact ⟨id, fun _ => id⟩
  | _ => simp [isObjectPayload, Shape.underlying] at hobject

theorem listed_subset (hobject : context.isObjectPayload shape) :
    context.listed active shape ⊆ context.graph.structKeys shape := by
  intro key hkey
  unfold listed at hkey
  split at hkey
  · next doc hdoc => exact (listed_payload hobject hdoc key).1 (Document.has_eq_mem.mpr hkey)
  · cases hkey

theorem structKeys_subset (hobject : context.isObjectPayload shape)
    (hderives : context.Derives active shape) (hfresh : ∀ node ∈ shape.chain, node ∉ active) :
    context.graph.structKeys shape ⊆ context.listed active shape := by
  intro key hkey
  obtain ⟨doc, hdoc⟩ := hderives
  simp only [listed, hdoc]
  exact Document.has_eq_mem.mp ((listed_payload hobject hdoc key).2 hfresh hkey)

/-- Tags that meet no properties meet no fewer ones either. -/
theorem keepsApart_mono {keys more : Shape → List String} (hfits : context.Fits shape)
    (hkeys : EachPart (fun part => context.isObjectPayload part → keys part ⊆ more part)
      (context.graph.parts shape))
    (hapart : context.graph.KeepsApart more shape) : context.graph.KeepsApart keys shape := by
  cases shape with
  | declared index =>
    intro type hfound tag htag variant hvariant hmem
    simp only [Fits, hfound] at hfits
    have hparts : context.graph.parts (.declared index) = (Declaration.enum type).parts := by
      simp [Graph.parts, hfound]
    rw [hparts, eachPart_enum] at hkeys
    have hmergeable := hfits.mergeable tag htag variant hvariant
    have hpayload := hkeys variant hvariant
    refine hapart type hfound tag htag variant hvariant ?_
    cases hcase : variant.payload with
    | newtype part =>
      rw [hcase] at hmem hmergeable hpayload
      exact eachPart_singleton.mp hpayload hmergeable hmem
    | _ => rw [hcase] at hmem; exact hmem
  | _ => trivial

/-- No more properties are listed than there are, whatever is being expanded. -/
theorem keepsApart_listed (hfits : context.Fits shape)
    (hapart : context.graph.KeepsApart context.graph.structKeys shape) (active : List Shape) :
    context.graph.KeepsApart (context.listed active) shape :=
  keepsApart_mono hfits (fun _ _ _ hobject => listed_subset hobject) hapart

/-- Whether all that a shape reaches is in order and keeps its tags apart from the properties of
payloads that are not cut. -/
def IsSettled (context : Context) (shape : Shape) : Prop :=
  ∀ target, context.graph.Reaches shape target →
    context.Fits target ∧ context.graph.KeepsApart context.graph.structKeys target

theorem IsSettled.part (h : context.IsSettled shape) {steps : List Step} {part : Shape}
    (hpart : (steps, part) ∈ context.graph.parts shape) : context.IsSettled part :=
  fun target hreaches => h target ((Graph.Reaches.of_mem_parts hpart).trans hreaches)

theorem IsSettled.derives (active : List Shape) (shape : Shape) :
    context.IsSettled shape → context.Derives active shape := by
  induction active, shape using context.graph.expansion_induction with
  | pass active shape hnominal ih =>
    intro h
    obtain ⟨hfits, hapart⟩ := h shape (.refl _ shape)
    exact (derives_of_not_nominal hnominal).mpr ⟨hfits, keepsApart_listed hfits hapart _,
      fun steps part hpart => ih steps part hpart (h.part hpart)⟩
  | cut active shape hnominal hmem => exact fun _ => derives_of_mem hnominal hmem
  | expand active shape hnominal hmem ih =>
    intro h
    obtain ⟨hfits, hapart⟩ := h shape (.refl _ shape)
    exact (derives_of_not_mem hnominal hmem).mpr ⟨hfits, keepsApart_listed hfits hapart _,
      fun steps part hpart => ih steps part hpart (h.part hpart)⟩

/-- An enum that has a schema as a root keeps its tag apart: none of its payloads is cut on the way
down to its struct. -/
theorem Derives.keepsApart (h : context.Derives [] shape) :
    context.graph.KeepsApart context.graph.structKeys shape := by
  cases shape with
  | declared index =>
    intro type hfound
    obtain ⟨hfits, hapart, hparts⟩ := (derives_of_not_mem rfl List.not_mem_nil).mp h
    refine keepsApart_mono hfits (fun steps part hpart hobject => ?_) hapart type hfound
    refine structKeys_subset hobject (hparts steps part hpart) fun node hnode hmem => ?_
    rw [List.mem_singleton.mp hmem] at hnode
    simp [isObjectPayload, Shape.declared_mem_chain hnode, hfound] at hobject
  | _ => trivial

end Context

theorem Constraints.fit_none (shape : Shape) : Constraints.none.Fit shape where
  check := rfl
  number := nofun

/-- If a root has a schema, all types that it reaches have schemas as roots exactly if no tag among
them is the key of a property of its payload. -/
theorem Graph.derive_reached_iff (graph : Graph) (settings : DeriveSettings) {root : Shape}
    {c : Constraints} {doc : Document} (hroot : graph.derive settings root c [] = .ok doc) :
    (∀ node, node.isNominal → graph.Reaches root node →
      ∃ doc, graph.derive settings node .none [] = .ok doc) ↔
        ∀ node, graph.Reaches root node → graph.KeepsApart graph.structKeys node := by
  rw [graph.derive_nil] at hroot
  simp only [graph.derive_nil]
  have hderives := (Context.succeeds_derive?.mp ⟨doc, hroot⟩).2
  constructor
  · intro h node hreaches
    cases node with
    | declared index =>
      obtain ⟨_, hnode⟩ := Context.succeeds_derive?.mp (h _ rfl hreaches)
      exact hnode.keepsApart
    | _ => trivial
  · intro h node _ hreaches
    refine Context.succeeds_derive?.mpr ⟨Constraints.fit_none node, ?_⟩
    refine Context.IsSettled.derives [] node fun target hmore => ?_
    have htarget := hreaches.trans hmore
    exact ⟨hderives.fits htarget.avoiding_nil, h target htarget⟩

/-- Events that name their cause, which is an earlier event under a tag. The tag has the name of a
property of events. -/
def eventGraph : Graph where
  declarations := #[
    .struct ⟨"Event", [⟨"kind", .primitive .string, .none, by decide⟩,
      ⟨"cause", .declared 1, .none, by decide⟩], none, .unspecified⟩,
    .enum ⟨"Cause", [⟨"Earlier", .newtype (.declared 0), .none, by decide⟩],
      .internal "kind", none⟩]
  labels := 0

def eventSchema : Document :=
  [("type", .str "object"),
    ("properties", .obj
      [("kind", .obj [("type", .str "string")]),
        ("cause", .obj [("anyOf", .arr [.obj
          [("type", .str "object"),
            ("properties", .obj [("kind", .obj [("enum", .arr [.str "Earlier"])])]),
            ("required", .arr [.str "kind"])]])])]),
    ("required", .arr [.str "kind", .str "cause"]), ("additionalProperties", .bool false)]

theorem derive_event :
    eventGraph.derive .default (.declared 0) .none [] = .ok eventSchema := by
  rw [Graph.derive_nil]
  cbv

/-- Events have a schema, but the causes that they reach have none. -/
theorem derive_event_not_cause :
    eventGraph.derive .default (.declared 0) .none [] = .ok eventSchema ∧
      eventGraph.Reaches (.declared 0) (.declared 1) ∧
        eventGraph.derive .default (.declared 1) .none [] =
          .error ⟨.tagCollision "Earlier" "kind", .start "Cause"⟩ := by
  have hpart : ([.member "cause"], .declared 1) ∈ eventGraph.parts (.declared 0) := by decide
  refine ⟨derive_event, .of_mem_parts hpart, ?_⟩
  rw [Graph.derive_nil]
  cbv

theorem derive_reached_iff_event :
    eventGraph.derive .default (.declared 0) .none [] = .ok eventSchema ∧
      ((∀ node, node.isNominal → eventGraph.Reaches (.declared 0) node →
        ∃ doc, eventGraph.derive .default node .none [] = .ok doc) ↔
          ∀ node, eventGraph.Reaches (.declared 0) node →
            eventGraph.KeepsApart eventGraph.structKeys node) :=
  ⟨derive_event, eventGraph.derive_reached_iff .default derive_event⟩

end ShapeSchema
