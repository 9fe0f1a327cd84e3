import ShapeSchema.Proofs.Acceptance.Fidelity
import ShapeSchema.Proofs.Derivation.Coverage

/-!
The schemas of enums. Each variant has its own alternative, which accepts exactly the encodings of
the variant, whatever its payload is: a payload beside a tag is a struct, a map or what stands for
one that is being expanded, perhaps under named wrappers, and none of them says more than which
properties there are.
-/

namespace ShapeSchema

namespace Schema

open Tagging

theorem isPlainObject_nil : IsPlainObject [] where
  typed := .of_members List.nodup_nil (by simp)
  keys := List.nil_subset _
  type _ hspec := by cases hspec
  required _ hname := absurd hname List.not_mem_nil

theorem isPlainObject_anyObject : IsPlainObject anyObject where
  typed := .of_members (by simp [anyObject, Document.keys]) (by simp [anyObject, hasForm])
  keys := by simp [anyObject, Document.keys]
  type spec hspec := by
    rw [anyObject, Document.get?_cons, if_pos rfl] at hspec
    exact (Option.some.inj hspec).symm
  required _ hname := absurd hname List.not_mem_nil

theorem isPlainObject_map {key : PrimitiveKind} {values : Json} {doc : Document}
    (hdoc : map key values = .ok doc) : IsPlainObject doc := by
  unfold map at hdoc
  split at hdoc
  · cases hdoc
    exact {
      typed := .of_members (by simp [Document.keys]) (by cases values <;> simp [hasForm])
      keys := by simp [Document.keys]
      type := fun spec hspec => by
        rw [Document.get?_cons, if_pos rfl] at hspec
        exact (Option.some.inj hspec).symm
      required := fun _ hname => absurd hname List.not_mem_nil }
  · cases hdoc

theorem requiredOf_objectSchema (ps : List Context.Property) (x : Json) :
    requiredOf (Context.objectSchema ps x) = (ps.filter (·.required)).map (Json.str ·.key) := by
  unfold Context.objectSchema
  dsimp only
  split
  · next hempty =>
    rw [List.isEmpty_iff.mp hempty]
    simp [requiredOf, requiredPart, Json.member?, Document.get?_cons]
  · simp [requiredOf, requiredPart, Json.member?, Document.get?_cons]

theorem isPlainObject_objectSchema (ps : List Context.Property) (x : Json) :
    IsPlainObject (Context.objectSchema ps x) where
  typed := isTyped_objectSchema ps x
  keys := (keys_objectSchema ps x).subset
  type spec hspec := by
    simp only [Context.objectSchema, List.cons_append, Document.get?_cons, if_true] at hspec
    exact (Option.some.inj hspec).symm
  required name hname := by
    rw [requiredOf_objectSchema] at hname
    obtain ⟨p, hp, rfl⟩ := List.mem_map.mp hname
    refine ⟨p.key, rfl, ?_⟩
    rw [propertiesOf_objectSchema, Document.has_eq_mem, Document.keys, List.map_map]
    exact List.mem_map.mpr ⟨p, (List.mem_filter.mp hp).1, rfl⟩

end Schema

namespace Context

variable {context : Context}

section Payloads

variable {child : Shape → Location → Except SchemaError Document} {active : List Shape}
  {shape : Shape} {place : Location}

theorem isPlainObject_structSchema {fields : List Field} {rule : Option RenameRule} {extra : Extra}
    {doc : Document} (hdoc : context.structSchema child fields rule extra place = .ok doc) :
    Schema.IsPlainObject doc := by
  obtain ⟨properties, _, hdoc⟩ := bind_eq_ok.mp hdoc
  obtain ⟨further, _, hdoc⟩ := bind_eq_ok.mp hdoc
  cases hdoc
  exact Schema.isPlainObject_objectSchema properties further

/-- What stands for a mergeable payload says nothing but which properties it has. -/
theorem isPlainObject_payload (hobject : context.isObjectPayload shape) {doc : Document}
    (hdoc : context.walk Policy.plain active shape place = .ok doc) :
    Schema.IsPlainObject doc := by
  induction shape generalizing active place with
  | newtype label name inner ih =>
    by_cases hmem : Shape.newtype label name inner ∈ active
    · rw [context.plain_of_mem place rfl hmem] at hdoc
      cases hdoc
      exact Schema.isPlainObject_nil
    · rw [context.plain_of_not_mem place rfl hmem] at hdoc
      exact ih hobject hdoc
  | map label key value =>
    rw [context.walk_of_not_nominal Policy.plain active place rfl] at hdoc
    obtain ⟨values, _, hdoc⟩ := bind_eq_ok.mp hdoc
    exact Schema.isPlainObject_map (located_eq_ok.mp hdoc)
  | declared index =>
    obtain ⟨type, hfound⟩ := struct_of_isObjectPayload hobject
    by_cases hmem : Shape.declared index ∈ active
    · rw [context.plain_of_mem place rfl hmem] at hdoc
      simp only [cutSchema, placeholder, hfound] at hdoc
      cases hdoc
      exact Schema.isPlainObject_anyObject
    · rw [context.plain_of_not_mem place rfl hmem] at hdoc
      simp only [level, hfound, declarationSchema] at hdoc
      exact isPlainObject_structSchema hdoc
  | _ => simp [isObjectPayload, Shape.underlying] at hobject

/-- The shape below a mergeable payload is no number, so that no bounds are put on it. -/
theorem unwrapped_ne_primitive (hobject : context.isObjectPayload shape) (kind : PrimitiveKind) :
    shape.unwrapped ≠ .primitive kind := by
  induction shape with
  | newtype label name inner ih => exact ih hobject
  | map | declared =>
    intro heq
    cases heq
  | _ => simp [isObjectPayload, Shape.underlying] at hobject

/-- The schema of a mergeable payload says nothing but which properties it has. -/
theorem isPlainObject_payloadSchema
    (hchild : ∀ {shape place doc}, context.isObjectPayload shape → child shape place = .ok doc →
      Schema.IsPlainObject doc)
    {variant : Variant} {payload? : Option Document}
    (hpayload : context.payloadSchema child variant place = .ok payload?) :
    payload?.isSome && context.isMergeable variant.payload →
      ∀ doc, payload? = some doc → Schema.IsPlainObject doc := by
  rintro hmergeable doc rfl
  obtain ⟨name, payload, c, hname⟩ := variant
  cases payload with
  | newtype shape =>
    obtain ⟨_, hdoc, heq⟩ := map_eq_ok.mp hpayload
    cases heq
    obtain ⟨hfit, inner, hinner, rfl⟩ := context.constrained_eq_ok.mp hdoc
    split
    · next hbounds =>
      obtain ⟨kind, hkind, _⟩ := hfit.number hbounds
      exact absurd hkind (unwrapped_ne_primitive hmergeable kind)
    · exact hchild hmergeable hinner
  | unit => cases hpayload
  | tuple shapes => cases hmergeable
  | struct fields =>
    obtain ⟨_, hdoc, heq⟩ := map_eq_ok.mp hpayload
    cases heq
    exact isPlainObject_structSchema hdoc

/-- Whether a schema is the alternative of a variant: it accepts exactly the encodings of the
variant under its key, with the values that the schema of its payload accepts. -/
def IsAlternative (context : Context) (child : Shape → Location → Except SchemaError Document)
    (type : Enum) (place : Location) (variant : Variant) (alternative : Document) : Prop :=
  ∃ payload?, context.payloadSchema child variant (place.push (.member variant.name)) =
      .ok payload? ∧
    ∀ reading value, value.KeysDistinct → (Schema.accepts reading alternative value ↔
      type.tagging.IsEncoding
        (variantKey variant.name variant.constraints.rename type.renameAll)
        (payload?.map fun doc payload => Schema.accepts reading doc payload) value)

/-- Whether a schema is the union of the variants of an enum, one alternative for each in order,
with the payloads derived below the enum. -/
def IsUnion (context : Context) (active : List Shape) (index : Nat) (type : Enum)
    (place : Location) (doc : Document) : Prop :=
  ∃ alternatives : List Document, doc = [("anyOf", .arr (alternatives.map .obj))] ∧
    List.Forall₂ (context.IsAlternative
      (context.walk Policy.plain (.declared index :: active)) type place)
      type.variants alternatives

/-- Encoded one after another, the variants of an enum have alternatives. -/
theorem alternatives_of_encodedVariants {rule : Option RenameRule} {tagging : Tagging}
    {P : Variant → Document → Prop}
    (heach : ∀ {variant encoded schema},
      context.encodedVariant child rule place variant = .ok encoded →
        tagging.encode encoded = .ok schema →
          ∃ alternative, schema = .obj alternative ∧ P variant alternative)
    {used : List String} {variants : List Variant} {encoded : List EncodedVariant}
    (hencoded : context.encodedVariants child rule place used variants = .ok encoded)
    {schemas : List Json} (hschemas : encoded.mapM tagging.encode = .ok schemas) :
    ∃ alternatives : List Document, schemas = alternatives.map .obj ∧
      List.Forall₂ P variants alternatives := by
  induction variants generalizing used encoded schemas with
  | nil =>
    cases hencoded
    cases hschemas
    exact ⟨[], rfl, .nil⟩
  | cons variant rest ih =>
    obtain ⟨first, hfirst, hencoded⟩ := bind_eq_ok.mp hencoded
    obtain ⟨_, hencoded⟩ := guarded_eq_ok.mp hencoded
    obtain ⟨more, hmore, hencoded⟩ := bind_eq_ok.mp hencoded
    cases hencoded
    rw [List.mapM_cons] at hschemas
    obtain ⟨schema, hschema, hschemas⟩ := bind_eq_ok.mp hschemas
    obtain ⟨others, hothers, hschemas⟩ := bind_eq_ok.mp hschemas
    cases hschemas
    obtain ⟨alternative, rfl, hP⟩ := heach hfirst hschema
    obtain ⟨alternatives, rfl, hrest⟩ := ih hmore hothers
    exact ⟨alternative :: alternatives, rfl, .cons hP hrest⟩

/-- The schema of an enum is the union of the alternatives of its variants. -/
theorem alternatives_of_enumSchema {type : Enum} {P : Variant → Document → Prop}
    (heach : ∀ {variant encoded schema}, type.tagging.check = .ok () →
      context.encodedVariant child type.renameAll place variant = .ok encoded →
        type.tagging.encode encoded = .ok schema →
          ∃ alternative, schema = .obj alternative ∧ P variant alternative)
    {doc : Document} (hdoc : context.enumSchema child type place = .ok doc) :
    ∃ alternatives : List Document, doc = [("anyOf", .arr (alternatives.map .obj))] ∧
      List.Forall₂ P type.variants alternatives := by
  obtain ⟨encoded, hencoded, hdoc⟩ := bind_eq_ok.mp hdoc
  rw [located_eq_ok] at hdoc
  obtain ⟨_, hcheck, hdoc⟩ := bind_eq_ok.mp hdoc
  split at hdoc
  · cases hdoc
  · obtain ⟨schemas, hschemas, hdoc⟩ := bind_eq_ok.mp hdoc
    cases hdoc
    obtain ⟨alternatives, rfl, halternatives⟩ :=
      alternatives_of_encodedVariants (heach hcheck) hencoded hschemas
    exact ⟨alternatives, rfl, halternatives⟩

theorem alternatives_of_plain {index : Nat} {type : Enum} {P : Variant → Document → Prop}
    (hfound : context.graph.declaration? index = some (.enum type))
    (hmem : Shape.declared index ∉ active)
    (heach : ∀ {variant encoded schema}, type.tagging.check = .ok () →
      context.encodedVariant (context.walk Policy.plain (.declared index :: active)) type.renameAll
        place variant = .ok encoded →
        type.tagging.encode encoded = .ok schema →
          ∃ alternative, schema = .obj alternative ∧ P variant alternative)
    {doc : Document}
    (hdoc : context.walk Policy.plain active (.declared index) place = .ok doc) :
    ∃ alternatives : List Document, doc = [("anyOf", .arr (alternatives.map .obj))] ∧
      List.Forall₂ P type.variants alternatives := by
  rw [context.plain_of_not_mem place rfl hmem] at hdoc
  simp only [level, hfound, declarationSchema] at hdoc
  exact alternatives_of_enumSchema heach hdoc

theorem isUnion_of_plain {index : Nat} {type : Enum}
    (hfound : context.graph.declaration? index = some (.enum type))
    (hmem : Shape.declared index ∉ active) {doc : Document}
    (hdoc : context.walk Policy.plain active (.declared index) place = .ok doc) :
    context.IsUnion active index type place doc := by
  refine alternatives_of_plain hfound hmem (fun hcheck hencoded hschema => ?_) hdoc
  obtain ⟨_, payload?, hpayload, rfl⟩ := context.encodedVariant_eq_ok.mp hencoded
  have hplain := isPlainObject_payloadSchema
    (fun hobject hdoc => isPlainObject_payload hobject hdoc) hpayload
  obtain ⟨alternative, rfl, haccepts⟩ := Schema.accepts_encode hcheck hplain hschema
  exact ⟨alternative, rfl, payload?, hpayload, haccepts⟩

end Payloads
end Context

/-- Every enum that a derivation expands, as its root or further inside, has the union of its
variants as schema, each with an alternative that accepts exactly what the convention stores. -/
theorem Graph.derive_union {graph other : Graph} {root shape : Shape} {bindings : Bindings}
    (hsubst : graph.substitute bindings root = (shape, other)) (settings : DeriveSettings)
    {index : Nat} {type : Enum} (hfound : other.declaration? index = some (.enum type)) :
    (∀ c doc, shape = .declared index → graph.derive settings root c bindings = .ok doc →
      Context.IsUnion ⟨other, settings.strictObjects⟩ [] index type
        (.start (other.describe shape)) doc) ∧
      ∀ active place doc, Shape.declared index ∉ active →
        Context.walk ⟨other, settings.strictObjects⟩ Policy.plain active (.declared index) place =
            .ok doc →
          Context.IsUnion ⟨other, settings.strictObjects⟩ active index type place doc := by
  refine ⟨?_, fun active place doc hmem hdoc => Context.isUnion_of_plain hfound hmem hdoc⟩
  rintro c doc rfl hdoc
  rw [graph.derive_eq hsubst] at hdoc
  obtain ⟨_, _, hdoc⟩ := bind_eq_ok.mp hdoc
  obtain ⟨inner, hinner, hdoc⟩ := bind_eq_ok.mp hdoc
  split at hdoc
  · -- an enum is no number, so that it cannot have bounds
    obtain ⟨⟨kind, hkind, _⟩, _⟩ := Context.applyBounds_eq_ok _ |>.mp (located_eq_ok.mp hdoc)
    cases hkind
  · cases hdoc
    exact Context.isUnion_of_plain hfound List.not_mem_nil hinner

/-- Trees that are empty or fork into two trees, told apart by a tag beside the members of a
fork. -/
def treeType : Enum :=
  ⟨"Tree", [⟨"Empty", .unit, .none, by decide⟩, ⟨"Fork", .newtype (.declared 1), .none, by decide⟩],
    .internal "kind", none⟩

def treeGraph : Graph where
  declarations := #[.enum treeType,
    .struct ⟨"Fork", [⟨"left", .declared 0, .none, by decide⟩,
      ⟨"right", .declared 0, .none, by decide⟩], none, .allowed true⟩]
  labels := 0

def treeSchema : Document :=
  [("anyOf", .arr [
    .obj [("type", .str "object"),
      ("properties", .obj [("kind", .obj [("enum", .arr [.str "Empty"])])]),
      ("required", .arr [.str "kind"]), ("additionalProperties", .bool false)],
    .obj [("type", .str "object"),
      ("properties", .obj [("kind", .obj [("enum", .arr [.str "Fork"])]), ("left", .obj []),
        ("right", .obj [])]),
      ("required", .arr [.str "kind", .str "left", .str "right"]),
      ("additionalProperties", .bool true)]])]

theorem derive_union_tree :
    treeGraph.derive .default (.declared 0) .none [] = .ok treeSchema ∧
      Context.IsUnion ⟨treeGraph, true⟩ [] 0 treeType (.start "Tree") treeSchema := by
  have hderive : treeGraph.derive .default (.declared 0) .none [] = .ok treeSchema := by
    rw [Graph.derive_nil]
    cbv
  have hsubst : treeGraph.substitute [] (.declared 0) = (.declared 0, treeGraph) := rfl
  have hfound : treeGraph.declaration? 0 = some (.enum treeType) := rfl
  have hunion := Graph.derive_union hsubst .default hfound
  exact ⟨hderive, hunion.1 .none treeSchema rfl hderive⟩

end ShapeSchema
