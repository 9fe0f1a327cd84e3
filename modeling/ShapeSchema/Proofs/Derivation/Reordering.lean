import ShapeSchema.Proofs.Derivation.Coverage
import ShapeSchema.Proofs.Derivation.Rearrangement
import ShapeSchema.Proofs.Json.Comparison

/-!
The order in which types declare their fields and variants. It decides where a derivation fails, but
not whether it does, and the schemas over graphs that differ in it say the same.

A level over a reordered graph is compared in two steps: first over the same graph, from the schemas
of the parts over the one graph to those over the other, then over the two graphs, from the same
schemas of the parts.
-/

namespace ShapeSchema

inductive Payload.Reordered : Payload → Payload → Prop
  | unit : Reordered .unit .unit
  | newtype (shape : Shape) : Reordered (.newtype shape) (.newtype shape)
  | tuple (elements : List Shape) : Reordered (.tuple elements) (.tuple elements)
  | struct {fields others : List Field} (perm : fields.Perm others) :
      Reordered (.struct fields) (.struct others)

structure Variant.Reordered (x y : Variant) : Prop where
  name : x.name = y.name
  constraints : x.constraints = y.constraints
  payload : Payload.Reordered x.payload y.payload

inductive Declaration.Reordered : Declaration → Declaration → Prop
  | struct {x y : Struct} (name : x.name = y.name) (rule : x.renameAll = y.renameAll)
      (extra : x.extra = y.extra) (fields : x.fields.Perm y.fields) :
      Reordered (.struct x) (.struct y)
  | tuple (type : Tuple) : Reordered (.tuple type) (.tuple type)
  | enum {x y : Enum} {arranged : List Variant} (name : x.name = y.name)
      (rule : x.renameAll = y.renameAll) (tagging : x.tagging = y.tagging)
      (variants : x.variants.Perm arranged)
      (payloads : List.Forall₂ Variant.Reordered arranged y.variants) :
      Reordered (.enum x) (.enum y)

/-- Graphs whose types differ at most in the order of fields and variants. -/
def Graph.Reordered (g h : Graph) : Prop :=
  ∀ index, Option.Rel Declaration.Reordered (g.declaration? index) (h.declaration? index)

section Symmetry

theorem Payload.Reordered.symm {x y : Payload} (h : x.Reordered y) : y.Reordered x := by
  cases h with
  | unit => exact .unit
  | newtype shape => exact .newtype shape
  | tuple elements => exact .tuple elements
  | struct hperm => exact .struct hperm.symm

theorem Variant.Reordered.symm {x y : Variant} (h : x.Reordered y) : y.Reordered x :=
  ⟨h.name.symm, h.constraints.symm, h.payload.symm⟩

theorem Declaration.Reordered.symm {x y : Declaration} (h : x.Reordered y) : y.Reordered x := by
  cases h with
  | struct hname hrule hextra hfields =>
    exact .struct hname.symm hrule.symm hextra.symm hfields.symm
  | tuple type => exact .tuple type
  | enum hname hrule htagging hvariants hpayloads =>
    obtain ⟨moved, hmoved, hperm⟩ := List.perm_comp_forall₂ hvariants hpayloads
    exact .enum hname.symm hrule.symm htagging.symm hperm.symm
      (hmoved.flip.imp fun _ _ hpayload => Variant.Reordered.symm hpayload)

theorem Graph.Reordered.symm {g h : Graph} (hgh : g.Reordered h) : h.Reordered g := by
  intro index
  have hindex := hgh index
  generalize g.declaration? index = x at hindex ⊢
  generalize h.declaration? index = y at hindex ⊢
  cases hindex with
  | none => exact .none
  | some htype => exact .some htype.symm

end Symmetry

open Schema

theorem Survives.trans {ε α : Type} {R : α → α → Prop} {x y z : Except ε α}
    (hR : ∀ {a b c}, R a b → R b c → R a c) (hxy : Survives R x y) (hyz : Survives R y z) :
    Survives R x z := by
  intro a ha
  obtain ⟨b, hb, hab⟩ := hxy a ha
  obtain ⟨c, hc, hbc⟩ := hyz b hb
  exact ⟨c, hc, hR hab hbc⟩

namespace Context

/-- The rules of the derivation keep schemas that say the same. -/
theorem respects_saysSame (context : Context) :
    Coupling.surviving.Respects context context Eq SaysSame SaysSame FurtherSame where
  ordinary _ := trivial
  optional h := by rw [h]
  mergeable h := by rw [h]
  inner h := h
  bounded {s t p q d e c} hcheck hshape hdoc _ := by
    rw [hshape]
    refine Survives.located (fun bounded hbounded => ?_) p q
    obtain ⟨hnumber, rfl⟩ := context.applyBounds_eq_ok.mp hbounded
    exact ⟨_, context.applyBounds_eq_ok.mpr ⟨hnumber, rfl⟩, hdoc.bounded hcheck⟩
  widened {p q d e} hdoc _ := hdoc.widened.located p q
  mapped {p q d e} key hdoc _ := (hdoc.map key).located p q
  primitive kind := .refl (isTidy_primitive kind)
  anyObject := .refl (.of_members isTyped_anyObject (by simp [anyObject]))
  objectId := .refl (.of_members outdoes_objectId.tightens.left (by simp [objectId]))
  unit := .refl (.of_members outdoes_unit.tightens.left (by simp [unit, count]))
  array h := h.array
  set h := h.set
  fixedArray length h := h.fixedArray length
  tuple h := .tuple h
  unspecified := .bool _
  allowed allowed := .bool allowed
  values h := .held h
  object {ps _ _ _} h hnodup hfurther := .objectSchema (.refl ps) h hnodup hfurther
  union {vs ws p q} tagging h _ := (survives_encodeUnion_same tagging (.refl vs) h).located p q

/-- One level says the same if the schemas of the parts do. -/
theorem same_level (context : Context) {shape : Shape}
    {left right : Shape → Location → Except SchemaError Document}
    (hparts : ∀ steps part, (steps, part) ∈ context.graph.parts shape → ∀ p q,
      Survives SaysSame (left part p) (right part q)) (p q : Location) :
    Survives SaysSame (context.level left shape p) (context.level right shape q) :=
  context.respects_saysSame.level_of_parts rfl
    (fun steps part hpart p q _ => hparts steps part hpart p q) trivial

end Context

namespace Context

variable {a b context : Context} {child : Shape → Location → Except SchemaError Document}
  {place : Location}

theorem isTidy_of_becomes (htidy : ∀ {shape there doc}, child shape there = .ok doc → IsTidy doc)
    {rule : Option RenameRule} {field : Field} {property : Property}
    (h : field.Becomes child rule place property) : IsTidy property.schema := by
  obtain ⟨hfit, inner, hinner, hschema⟩ := h.schema
  rw [hschema]
  split
  · exact (htidy hinner).bounded hfit.check
  · exact htidy hinner

/-- The schema of an object hangs on the order of its fields only by the order of what it lists. -/
theorem reordered_structSchema (hstrict : a.strict = b.strict)
    (htidy : ∀ {shape there doc}, child shape there = .ok doc → IsTidy doc)
    {fields others : List Field} (hperm : fields.Perm others) (rule : Option RenameRule)
    (extra : Extra) :
    Survives SaysSame (a.structSchema child fields rule extra place)
      (b.structSchema child others rule extra place) := by
  intro doc hdoc
  obtain ⟨listed, hlisted, hdoc⟩ := bind_eq_ok.mp hdoc
  obtain ⟨further, hfurther, hdoc⟩ := bind_eq_ok.mp hdoc
  cases hdoc
  obtain ⟨hfresh, hbecome⟩ := a.properties_eq_ok.mp hlisted
  have hnodup : (listed.map (·.key)).Nodup := by
    rw [a.keys_properties hlisted]
    exact freshKeys_nil.mp hfresh
  have hfresh' : FreshKeys [] (fieldKeys rule others) :=
    freshKeys_nil.mpr ((hperm.map _).nodup_iff.mp (freshKeys_nil.mp hfresh))
  obtain ⟨moved, hmoved, hperm'⟩ := List.perm_comp_forall₂ hperm.symm hbecome
  have hfurther' : b.additional child extra place = .ok further := by
    cases extra with
    | unspecified => simpa only [additional, hstrict] using hfurther
    | allowed | values => exact hfurther
  have hproper : FurtherSame further further := by
    cases extra with
    | unspecified | allowed =>
      cases hfurther
      exact .bool _
    | values shape =>
      obtain ⟨inner, hinner, hfurther⟩ := bind_eq_ok.mp hfurther
      cases hfurther
      exact .held (.refl (htidy hinner))
  refine ⟨objectSchema moved further, ?_, ?_⟩
  · exact bind_eq_ok.mpr ⟨moved, b.properties_eq_ok.mpr ⟨hfresh', hmoved⟩,
      bind_eq_ok.mpr ⟨further, hfurther', rfl⟩⟩
  · refine .objectSchema hperm'.symm (List.forall₂_same.mpr fun property hmem => ?_) hnodup hproper
    obtain ⟨field, hfield⟩ := exists_of_forall₂ hmoved.flip property hmem
    exact ⟨rfl, rfl, .refl (isTidy_of_becomes htidy hfield)⟩

theorem isTidy_elements (htidy : ∀ {shape there doc}, child shape there = .ok doc → IsTidy doc)
    {position : Nat} {shapes : List Shape} {items : List Document}
    (hitems : elements child place position shapes = .ok items) : ∀ item ∈ items, IsTidy item := by
  induction shapes generalizing position items with
  | nil =>
    cases hitems
    simp
  | cons shape rest ih =>
    obtain ⟨first, hfirst, hitems⟩ := bind_eq_ok.mp hitems
    obtain ⟨more, hmore, hitems⟩ := bind_eq_ok.mp hitems
    cases hitems
    exact List.forall_mem_cons.mpr ⟨htidy hfirst, ih hmore⟩

theorem isTidy_tupleSchema (htidy : ∀ {shape there doc}, child shape there = .ok doc → IsTidy doc)
    {shapes : List Shape} {doc : Document} (hdoc : tupleSchema child shapes place = .ok doc) :
    IsTidy doc := by
  obtain ⟨items, hitems, hdoc⟩ := bind_eq_ok.mp hdoc
  cases hdoc
  exact isTidy_tuple (isTidy_elements htidy hitems)

theorem isTidy_constrained (htidy : ∀ {shape there doc}, child shape there = .ok doc → IsTidy doc)
    {shape : Shape} {c : Constraints} {doc : Document}
    (hdoc : context.constrained child shape c place = .ok doc) : IsTidy doc := by
  obtain ⟨hfit, inner, hinner, rfl⟩ := context.constrained_eq_ok.mp hdoc
  split
  · exact (htidy hinner).bounded hfit.check
  · exact htidy hinner

section Reordered

variable (hgraph : a.graph.Reordered b.graph) (hstrict : a.strict = b.strict)

include hgraph in
theorem isObjectPayload_reordered (shape : Shape) :
    a.isObjectPayload shape = b.isObjectPayload shape := by
  unfold isObjectPayload
  split
  · rfl
  · next index _ =>
    have hindex := hgraph index
    generalize a.graph.declaration? index = x at hindex ⊢
    generalize b.graph.declaration? index = y at hindex ⊢
    cases hindex with
    | none => rfl
    | some htype => cases htype <;> rfl
  · rfl

include hgraph in
theorem cutSchema_reordered (shape : Shape) : a.cutSchema shape = b.cutSchema shape := by
  cases shape with
  | declared index =>
    have hindex := hgraph index
    simp only [cutSchema, placeholder]
    generalize a.graph.declaration? index = x at hindex ⊢
    generalize b.graph.declaration? index = y at hindex ⊢
    cases hindex with
    | none => rfl
    | some htype => cases htype <;> rfl
  | _ => rfl

variable (htidy : ∀ {shape there doc}, child shape there = .ok doc → IsTidy doc)
include hgraph hstrict htidy

theorem reordered_encodedVariant {v w : Variant} (hvariant : v.Reordered w)
    (rule : Option RenameRule) :
    Survives (EncodedVariant.Corresponds SaysSame) (a.encodedVariant child rule place v)
      (b.encodedVariant child rule place w) := by
  obtain ⟨name, payload, c, hname⟩ := v
  obtain ⟨_, payload', _, hname'⟩ := w
  obtain ⟨rfl, rfl, hpayload⟩ := hvariant
  intro encoded hencoded
  obtain ⟨hbounds, payload?, hschema, rfl⟩ := a.encodedVariant_eq_ok.mp hencoded
  cases hpayload with
  | newtype shape =>
    obtain ⟨doc, hdoc, rfl⟩ := map_eq_ok.mp hschema
    have hdoc' : b.constrained child shape c (place.push (.member name)) = .ok doc :=
      b.constrained_eq_ok.mpr (a.constrained_eq_ok.mp hdoc)
    refine ⟨_, b.encodedVariant_eq_ok.mpr ⟨hbounds, _, map_eq_ok.mpr ⟨doc, hdoc', rfl⟩, rfl⟩, rfl,
      isObjectPayload_reordered hgraph shape, ?_⟩
    exact .some ⟨doc, doc, rfl, rfl, .refl (isTidy_constrained htidy hdoc)⟩
  | unit =>
    cases hschema
    exact ⟨_, b.encodedVariant_eq_ok.mpr ⟨hbounds, none, rfl, rfl⟩, rfl, rfl, .none⟩
  | tuple shapes =>
    obtain ⟨doc, hdoc, rfl⟩ := map_eq_ok.mp hschema
    refine ⟨_, b.encodedVariant_eq_ok.mpr ⟨hbounds, _, map_eq_ok.mpr ⟨doc, hdoc, rfl⟩, rfl⟩, rfl,
      rfl, ?_⟩
    exact .some ⟨doc, doc, rfl, rfl, .refl (isTidy_tupleSchema htidy hdoc)⟩
  | struct hperm =>
    obtain ⟨doc, hdoc, rfl⟩ := map_eq_ok.mp hschema
    obtain ⟨other, hother, hsame⟩ :=
      reordered_structSchema hstrict htidy hperm none .unspecified doc hdoc
    have hbounds' : c.hasBounds = false := hbounds nofun
    refine ⟨_, b.encodedVariant_eq_ok.mpr ⟨fun _ => hbounds', _,
      map_eq_ok.mpr ⟨other, hother, rfl⟩, rfl⟩, rfl, rfl, ?_⟩
    exact .some ⟨doc, other, rfl, rfl, hsame⟩

theorem reordered_enumSchema {x y : Enum} {arranged : List Variant}
    (hrule : x.renameAll = y.renameAll) (htagging : x.tagging = y.tagging)
    (hperm : x.variants.Perm arranged)
    (hvariants : List.Forall₂ Variant.Reordered arranged y.variants) :
    Survives SaysSame (a.enumSchema child x place) (b.enumSchema child y place) := by
  intro doc hdoc
  obtain ⟨encoded, hencoded, hdoc⟩ := bind_eq_ok.mp hdoc
  obtain ⟨hfresh, hencode⟩ := a.encodedVariants_eq_ok.mp hencoded
  have hkeys : variantKeys x.renameAll arranged = variantKeys y.renameAll y.variants := by
    refine List.forall₂_eq_eq_eq ▸ List.rel_map (fun v w hvw => ?_) hvariants
    rw [hvw.name, hvw.constraints, hrule]
  have hfresh' : FreshKeys [] (variantKeys y.renameAll y.variants) := by
    rw [← hkeys]
    exact freshKeys_nil.mpr ((hperm.map _).nodup_iff.mp (freshKeys_nil.mp hfresh))
  obtain ⟨moved, hmoved, hperm'⟩ := List.perm_comp_forall₂ hperm.symm hencode
  have hothers : ∃ others, List.Forall₂
      (fun w e => b.encodedVariant child y.renameAll place w = .ok e) y.variants others ∧
        List.Forall₂ (EncodedVariant.Corresponds SaysSame) moved others := by
    rw [hrule] at hmoved
    exact exists_forall₂_of_survives hvariants hmoved fun v w hvw =>
      reordered_encodedVariant hgraph hstrict htidy hvw y.renameAll
  obtain ⟨others, hothers, hsame⟩ := hothers
  obtain ⟨union, hunion, hunions⟩ :=
    survives_encodeUnion_same x.tagging hperm'.symm hsame doc (located_eq_ok.mp hdoc)
  have hencoded := b.encodedVariants_eq_ok.mpr ⟨hfresh', hothers⟩
  refine ⟨union, bind_eq_ok.mpr ⟨others, hencoded, ?_⟩, hunions⟩
  exact located_eq_ok.mpr (htagging ▸ hunion)

/-- A declared type says the same in both graphs, from the same schemas of its parts. -/
theorem reordered_declared (index : Nat) :
    Survives SaysSame (a.level child (.declared index) place)
      (b.level child (.declared index) place) := by
  have hindex := hgraph index
  simp only [level]
  generalize a.graph.declaration? index = x at hindex ⊢
  generalize b.graph.declaration? index = y at hindex ⊢
  cases hindex with
  | none => exact .error
  | some htype =>
    cases htype with
    | struct _ hrule hextra hperm =>
      simp only [declarationSchema, hrule, hextra]
      exact reordered_structSchema hstrict htidy hperm _ _
    | tuple type =>
      intro doc hdoc
      exact ⟨doc, hdoc, .refl (isTidy_tupleSchema htidy hdoc)⟩
    | enum _ hrule htagging hperm hvariants =>
      exact reordered_enumSchema hgraph hstrict htidy hrule htagging hperm hvariants

end Reordered

theorem level_of_not_declared (child : Shape → Location → Except SchemaError Document)
    {shape : Shape} (place : Location) (hshape : ∀ index, shape ≠ .declared index) :
    a.level child shape place = b.level child shape place := by
  cases shape with
  | declared index => exact absurd rfl (hshape index)
  | _ => rfl

theorem isTidy_cutSchema (context : Context) (shape : Shape) :
    IsTidy (context.cutSchema shape) := by
  have htyped := (context.outdoes_cutSchema_self shape).tightens.left
  refine .of_members htyped ?_
  rcases context.cutSchema_cases shape with heq | ⟨_, _, ⟨_, _, heq⟩ | ⟨_, _, heq⟩⟩ <;>
    simp [heq]

/-- A derivation says the same at every place. -/
theorem same_elsewhere (context : Context) (active : List Shape) (shape : Shape)
    (p q : Location) :
    Survives SaysSame (context.walk Policy.plain active shape p)
      (context.walk Policy.plain active shape q) := by
  have hrules := context.respects_saysSame
  refine hrules.walk rfl (fun node => ?_) (fun _ _ _ hbody => hbody) active shape p q trivial
  exact .pure (.refl (context.isTidy_cutSchema node))

theorem isTidy_of_plain {active : List Shape} {shape : Shape} {doc : Document}
    (hdoc : context.walk Policy.plain active shape place = .ok doc) : IsTidy doc := by
  obtain ⟨_, _, hsame⟩ := context.same_elsewhere active shape place place doc hdoc
  exact hsame.left

/-- Over reordered graphs derivations cut the same nodes and say the same. -/
theorem reordered_walk (hgraph : a.graph.Reordered b.graph) (hstrict : a.strict = b.strict)
    (active : List Shape) (shape : Shape) : ∀ p q,
      Survives SaysSame (a.walk Policy.plain active shape p)
        (b.walk Policy.plain active shape q) := by
  have hexpand : ∀ active shape, (∀ steps part, (steps, part) ∈ a.graph.parts shape → ∀ p q,
      Survives SaysSame (a.walk Policy.plain active part p) (b.walk Policy.plain active part q)) →
      ∀ p q, Survives SaysSame (a.level (a.walk Policy.plain active) shape p)
        (b.level (b.walk Policy.plain active) shape q) := by
    intro active shape hparts p q
    have hsame := a.same_level hparts p q
    by_cases hdeclared : ∃ index, shape = .declared index
    · obtain ⟨index, rfl⟩ := hdeclared
      have hreordered :
          Survives SaysSame (a.level (b.walk Policy.plain active) (.declared index) q)
            (b.level (b.walk Policy.plain active) (.declared index) q) :=
        reordered_declared hgraph hstrict (fun hdoc => isTidy_of_plain hdoc) index
      exact hsame.trans SaysSame.trans hreordered
    · have hlevel := level_of_not_declared (a := a) (b := b) (b.walk Policy.plain active) q
        fun index hshape => hdeclared ⟨index, hshape⟩
      exact hlevel ▸ hsame
  induction active, shape using a.graph.expansion_induction with
  | pass active shape hnominal ih =>
    intro p q
    rw [a.walk_of_not_nominal Policy.plain active p hnominal,
      b.walk_of_not_nominal Policy.plain active q hnominal]
    exact hexpand active shape ih p q
  | cut active shape hnominal hmem =>
    intro p q
    rw [a.plain_of_mem p hnominal hmem, b.plain_of_mem q hnominal hmem,
      cutSchema_reordered hgraph shape]
    exact .pure (.refl (b.isTidy_cutSchema shape))
  | expand active shape hnominal hmem ih =>
    intro p q
    rw [a.plain_of_not_mem p hnominal hmem, b.plain_of_not_mem q hnominal hmem]
    exact hexpand (shape :: active) shape ih p q

theorem reordered_derive? (hgraph : a.graph.Reordered b.graph) (hstrict : a.strict = b.strict)
    (shape : Shape) (c : Constraints) :
    Survives SaysSame (a.derive? shape c) (b.derive? shape c) := by
  intro doc hdoc
  obtain ⟨hfit, inner, hinner, rfl⟩ := a.constrained_eq_ok.mp hdoc
  obtain ⟨other, hother, hsame⟩ := reordered_walk hgraph hstrict [] shape _
    (.start (b.graph.describe shape)) inner hinner
  refine ⟨_, b.constrained_eq_ok.mpr ⟨hfit, other, hother, rfl⟩, ?_⟩
  split
  · exact hsame.bounded hfit.check
  · exact hsame

end Context

/-- The order of fields and variants does not show: a root has a schema over both graphs or over
neither, and the two schemas are equal documents, up to the order of required keys and of
alternatives. -/
theorem Graph.derive_reordered {g h : Graph} (hgh : g.Reordered h) (settings : DeriveSettings)
    (root : Shape) (c : Constraints) :
    (Succeeds (g.derive settings root c []) ↔ Succeeds (h.derive settings root c [])) ∧
      ∀ d e, g.derive settings root c [] = .ok d → h.derive settings root c [] = .ok e →
        documentsEqual (.obj d) (.obj e) ["required", "anyOf"] := by
  rw [g.derive_nil, h.derive_nil]
  have hthere := Context.reordered_derive? (a := ⟨g, settings.strictObjects⟩)
    (b := ⟨h, settings.strictObjects⟩) hgh rfl root c
  have hback := Context.reordered_derive? (a := ⟨h, settings.strictObjects⟩)
    (b := ⟨g, settings.strictObjects⟩) hgh.symm rfl root c
  refine ⟨⟨?_, ?_⟩, ?_⟩
  · rintro ⟨d, hd⟩
    obtain ⟨e, he, _⟩ := hthere d hd
    exact ⟨e, he⟩
  · rintro ⟨e, he⟩
    obtain ⟨d, hd, _⟩ := hback e he
    exact ⟨d, hd⟩
  · intro d e hd he
    obtain ⟨_, he', hsame⟩ := hthere d hd
    cases he.symm.trans he'
    have hdecides := Difference.decides looseKeys (.obj d)
    exact (hdecides.same_iff hsame.right.proper).mpr hsame.same

def stackGraph : Graph where
  declarations := #[.enum ⟨"Stack",
    [⟨"Item", .struct [⟨"title", .primitive .string, .none, by decide⟩,
      ⟨"below", .declared 0, .none, by decide⟩], .none, by decide⟩,
      ⟨"Floor", .unit, .none, by decide⟩], .internal "kind", none⟩]
  labels := 0

/-- The same with everything in the opposite order. -/
def turnedStackGraph : Graph where
  declarations := #[.enum ⟨"Stack",
    [⟨"Floor", .unit, .none, by decide⟩,
      ⟨"Item", .struct [⟨"below", .declared 0, .none, by decide⟩,
        ⟨"title", .primitive .string, .none, by decide⟩], .none, by decide⟩],
    .internal "kind", none⟩]
  labels := 0

theorem stackGraph_reordered : stackGraph.Reordered turnedStackGraph := by
  intro index
  match index with
  | 0 =>
    refine .some (.enum rfl rfl rfl (.swap _ _ _) (.cons ⟨rfl, rfl, .unit⟩ (.cons ?_ .nil)))
    exact ⟨rfl, rfl, .struct (.swap _ _ _)⟩
  | index + 1 => exact .none

def floorSchema : Json :=
  .obj [("type", .str "object"),
    ("properties", .obj [("kind", .obj [("enum", .arr [.str "Floor"])])]),
    ("required", .arr [.str "kind"]), ("additionalProperties", .bool false)]

def itemSchema (properties : Document) : Json :=
  .obj [("type", .str "object"),
    ("properties", .obj (("kind", .obj [("enum", .arr [.str "Item"])]) :: properties)),
    ("required", .arr (.str "kind" :: properties.keys.map .str)),
    ("additionalProperties", .bool false)]

theorem derive_reordered_stack :
    stackGraph.derive .default (.declared 0) .none [] = .ok
        [("anyOf", .arr [itemSchema [("title", .obj [("type", .str "string")]), ("below", .obj [])],
          floorSchema])] ∧
      turnedStackGraph.derive .default (.declared 0) .none [] = .ok
        [("anyOf", .arr [floorSchema,
          itemSchema [("below", .obj []), ("title", .obj [("type", .str "string")])]])] ∧
      documentsEqual
        (.obj [("anyOf", .arr [itemSchema [("title", .obj [("type", .str "string")]),
          ("below", .obj [])], floorSchema])])
        (.obj [("anyOf", .arr [floorSchema, itemSchema [("below", .obj []),
          ("title", .obj [("type", .str "string")])]])]) ["required", "anyOf"] := by
  have hstack : stackGraph.derive .default (.declared 0) .none [] = .ok
      [("anyOf", .arr [itemSchema [("title", .obj [("type", .str "string")]), ("below", .obj [])],
        floorSchema])] := by
    rw [Graph.derive_nil]
    cbv
  have hturned : turnedStackGraph.derive .default (.declared 0) .none [] = .ok
      [("anyOf", .arr [floorSchema,
        itemSchema [("below", .obj []), ("title", .obj [("type", .str "string")])]])] := by
    rw [Graph.derive_nil]
    cbv
  have hequal := (Graph.derive_reordered stackGraph_reordered .default (.declared 0) .none).2
  exact ⟨hstack, hturned, hequal _ _ hstack hturned⟩

end ShapeSchema
