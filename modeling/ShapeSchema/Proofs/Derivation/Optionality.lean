import ShapeSchema.Proofs.Derivation.Locality
import ShapeSchema.Proofs.Derivation.Unions
import ShapeSchema.Proofs.Shape.Visiting
import ShapeSchema.Proofs.WellFormed.Derivation
import ShapeSchema.Proofs.WellFormed.Nullability

/-!
Optional shapes and null. A shape that has a schema has one as an optional shape too, which accepts
null beside. Other shapes admit null if they wrap a shape that does, if they store a variant without
anything around it that does, or if they are cut.
-/

namespace ShapeSchema

open Schema

namespace Context

variable {context : Context} {active : List Shape} {shape : Shape}

/-- The place of a shape does not matter for its schema. -/
theorem plain_there (context : Context) (active : List Shape) (shape : Shape) (p q : Location) :
    Survives Eq (context.walk Policy.plain active shape p)
      (context.walk Policy.plain active shape q) := by
  intro doc hdoc
  have hsame := context.plain_elsewhere active shape q p
  rw [hdoc] at hsame
  exact ⟨doc, hsame.eq_ok, rfl⟩

theorem isFresh_of_plain {place : Location} {doc : Document}
    (hdoc : context.walk Policy.plain active shape place = .ok doc) : IsFresh doc := by
  have hends := context.ends_plain active shape place
  rw [hdoc] at hends
  exact hends

/-- The schema of an optional shape is that of the shape, widened. -/
theorem plain_optional {place : Location} {doc : Document}
    (hdoc : context.walk Policy.plain active shape place = .ok doc) (label : Nat)
    (there : Location) : ∃ widened,
      context.walk Policy.plain active (.optional label shape) there = .ok widened ∧
        IsFresh widened ∧ IsWidening doc widened := by
  have hfresh := isFresh_of_plain hdoc
  obtain ⟨_, hthere, rfl⟩ := context.plain_there active shape place there doc hdoc
  obtain ⟨widened, hok, hwidened⟩ := hfresh.widened
  obtain ⟨_, hok', hwidening⟩ := widenNullable_of_isTyped hfresh.typed
  cases hok.symm.trans hok'
  refine ⟨widened, ?_, hwidened, hwidening⟩
  rw [context.walk_of_not_nominal Policy.plain active there rfl]
  simp only [level, hthere]
  exact located_eq_ok.mpr hok

/-- Whether a schema accepts null and what another one accepts, and nothing else. -/
def AddsNull (doc widened : Document) : Prop :=
  ∀ reading value, accepts reading widened value ↔ accepts reading doc value ∨ value = .null

/-- A shape with constraints has a schema as an optional shape too, which accepts null beside. -/
theorem constrained_optional {c : Constraints} {place : Location} {doc : Document}
    (hdoc : context.constrained (context.walk Policy.plain active) shape c place = .ok doc)
    (label : Nat) (there : Location) : ∃ widened,
      context.constrained (context.walk Policy.plain active) (.optional label shape) c there =
          .ok widened ∧ AddsNull doc widened := by
  obtain ⟨hfit, inner, hinner, rfl⟩ := context.constrained_eq_ok.mp hdoc
  obtain ⟨widened, hwidened, hfresh, hwidening⟩ := plain_optional hinner label there
  have hbelow : c.Fit (.optional label shape) := ⟨hfit.check, hfit.number⟩
  have hconstrained := context.constrained_eq_ok.mpr ⟨hbelow, widened, hwidened, rfl⟩
  refine ⟨_, hconstrained, fun reading value => ?_⟩
  have hinner := isFresh_of_plain hinner
  cases c.hasBounds with
  | true => exact hinner.accepts_bounded_widening hfresh.unbounded hwidening
  | false => exact hinner.accepts_widening hwidening

end Context

/-- Whether a shape admits null where some nodes are being expanded. -/
inductive Graph.Nullable (graph : Graph) : List Shape → Shape → Prop
  | optional {active : List Shape} (label : Nat) (inner : Shape) :
      Nullable graph active (.optional label inner)
  | wrapper {active : List Shape} {label : Nat} {name : String} {inner : Shape}
      (hinner : Nullable graph (.newtype label name inner :: active) inner) :
      Nullable graph active (.newtype label name inner)
  | wrapperAgain {active : List Shape} {label : Nat} {name : String} {inner : Shape}
      (hmem : Shape.newtype label name inner ∈ active) :
      Nullable graph active (.newtype label name inner)
  | enumAgain {active : List Shape} {index : Nat} {type : Enum}
      (hfound : graph.declaration? index = some (.enum type))
      (hmem : Shape.declared index ∈ active) : Nullable graph active (.declared index)
  | unitVariant {active : List Shape} {index : Nat} {type : Enum} {variant : Variant}
      (hfound : graph.declaration? index = some (.enum type)) (htagging : type.tagging = .untagged)
      (hvariant : variant ∈ type.variants) (hpayload : variant.payload = .unit) :
      Nullable graph active (.declared index)
  | nullableVariant {active : List Shape} {index : Nat} {type : Enum} {variant : Variant}
      {shape : Shape} (hfound : graph.declaration? index = some (.enum type))
      (htagging : type.tagging = .untagged) (hvariant : variant ∈ type.variants)
      (hpayload : variant.payload = .newtype shape)
      (hnullable : Nullable graph (.declared index :: active) shape) :
      Nullable graph active (.declared index)

/-- An enum that is not being expanded admits null for the sake of a variant. -/
theorem Graph.nullable_enum_iff {graph : Graph} {active : List Shape} {index : Nat} {type : Enum}
    (hfound : graph.declaration? index = some (.enum type)) (hmem : Shape.declared index ∉ active) :
    graph.Nullable active (.declared index) ↔ type.tagging = .untagged ∧
      ∃ variant ∈ type.variants, variant.payload = .unit ∨ ∃ shape,
        variant.payload = .newtype shape ∧ graph.Nullable (.declared index :: active) shape := by
  constructor
  · intro h
    cases h with
    | enumAgain _ hagain => exact absurd hagain hmem
    | unitVariant hother htagging hvariant hpayload =>
      cases hfound.symm.trans hother
      exact ⟨htagging, _, hvariant, .inl hpayload⟩
    | nullableVariant hother htagging hvariant hpayload hnullable =>
      cases hfound.symm.trans hother
      exact ⟨htagging, _, hvariant, .inr ⟨_, hpayload, hnullable⟩⟩
  · rintro ⟨htagging, variant, hvariant, hpayload | ⟨shape, hpayload, hnullable⟩⟩
    · exact .unitVariant hfound htagging hvariant hpayload
    · exact .nullableVariant hfound htagging hvariant hpayload hnullable

theorem Tagging.isEncoding_null_iff {tagging : Tagging} {key : String}
    {content? : Option (Stored → Prop)} : tagging.IsEncoding key content? .null ↔
      tagging = .untagged ∧ Tagging.holdsPayload content? .null := by
  cases tagging with
  | internal tag => cases content? <;> simp [IsEncoding]
  | _ => simp [IsEncoding]

namespace Context

variable {context : Context} {active : List Shape} {shape : Shape}

/-- Whether a schema names a kind of value other than null. -/
def NamesKind (doc : Document) : Prop :=
  ∃ kind name, (kind = "type" ∨ kind = "bsonType") ∧ name ≠ "null" ∧
    doc.get? kind = some (.str name)

theorem NamesKind.not_accepts_null {doc : Document} (h : NamesKind doc) (hdoc : IsTyped doc)
    (reading : Reading) : ¬ accepts reading doc .null := by
  obtain ⟨kind, name, hkind, hname, hfound⟩ := h
  exact Schema.not_accepts_null hdoc.nodup hkind hname hfound

theorem namesKind_of_type {doc : Document} (name : String) (hname : name ≠ "null")
    (htype : doc.get? "type" = some (.str name)) : NamesKind doc :=
  ⟨"type", name, .inl rfl, hname, htype⟩

theorem namesKind_primitive (kind : PrimitiveKind) : NamesKind (Schema.primitive kind) := by
  cases kind with
  | bool | f32 | f64 | string | url | uuid => exact namesKind_of_type _ (by simp) rfl
  | _ => exact ⟨"bsonType", _, .inr rfl, by simp, rfl⟩

/-- A shape that is neither named nor optional has a schema that names its kind. -/
theorem namesKind_of_level {child : Shape → Location → Except SchemaError Document}
    {place : Location} {doc : Document} (hnominal : shape.isNominal = false)
    (hoptional : shape.isOptional = false) (hdoc : context.level child shape place = .ok doc) :
    NamesKind doc := by
  cases shape with
  | optional => cases hoptional
  | newtype | declared => cases hnominal
  | primitive kind =>
    cases hdoc
    exact namesKind_primitive kind
  | array | set | fixedArray =>
    obtain ⟨_, _, hdoc⟩ := bind_eq_ok.mp hdoc
    cases hdoc
    exact namesKind_of_type "array" (by simp) rfl
  | map label key value =>
    obtain ⟨values, _, hdoc⟩ := bind_eq_ok.mp hdoc
    have hmap := located_eq_ok.mp hdoc
    unfold Schema.map at hmap
    split at hmap
    · cases hmap
      exact namesKind_of_type "object" (by simp) rfl
    · cases hmap
  | document | unit =>
    cases hdoc
    exact namesKind_of_type _ (by simp) rfl
  | objectId =>
    cases hdoc
    exact ⟨"bsonType", _, .inr rfl, by simp, rfl⟩
  | generic | raw => cases hdoc

/-- Constraints do not make the difference whether null is accepted. -/
theorem constrained_accepts_null {child : Shape → Location → Except SchemaError Document}
    {reading : Reading} {N : Prop}
    (hchild : ∀ place doc, child shape place = .ok doc →
      IsTyped doc ∧ (accepts reading doc .null ↔ N))
    {c : Constraints} {place : Location} {doc : Document}
    (hdoc : context.constrained child shape c place = .ok doc) :
    accepts reading doc .null ↔ N := by
  obtain ⟨_, inner, hinner, rfl⟩ := context.constrained_eq_ok.mp hdoc
  obtain ⟨htyped, hnull⟩ := hchild place inner hinner
  cases c.hasBounds with
  | true => exact (accepts_bounded_null htyped).trans hnull
  | false => exact hnull

/-- A variant that is stored without anything around it admits null if it carries nothing, or one
shape that admits null. -/
theorem holdsPayload_null_iff {child : Shape → Location → Except SchemaError Document}
    {reading : Reading} {N : Shape → Prop} {variant : Variant}
    (hchild : ∀ shape, variant.payload = .newtype shape → ∀ place doc,
      child shape place = .ok doc → IsTyped doc ∧ (accepts reading doc .null ↔ N shape))
    {place : Location} {payload? : Option Document}
    (hpayload : context.payloadSchema child variant place = .ok payload?) :
    Tagging.holdsPayload (payload?.map fun doc payload => accepts reading doc payload) .null ↔
      variant.payload = .unit ∨ ∃ shape, variant.payload = .newtype shape ∧ N shape := by
  obtain ⟨name, payload, c, hname⟩ := variant
  cases payload with
  | unit =>
    cases hpayload
    simp [Tagging.holdsPayload]
  | newtype shape =>
    obtain ⟨doc, hdoc, rfl⟩ := map_eq_ok.mp hpayload
    have hnull := constrained_accepts_null (hchild shape rfl) hdoc
    simpa [Tagging.holdsPayload] using hnull
  | tuple shapes =>
    obtain ⟨doc, hdoc, rfl⟩ := map_eq_ok.mp hpayload
    have htyped := isTyped_tupleSchema hdoc
    have hkind := namesKind_of_type "array" (by simp) (type_of_tupleSchema hdoc)
    have hnull := hkind.not_accepts_null htyped reading
    simpa [Tagging.holdsPayload] using hnull
  | struct fields =>
    obtain ⟨doc, hdoc, rfl⟩ := map_eq_ok.mp hpayload
    have htyped := (isPlainObject_structSchema hdoc).typed
    have hkind := namesKind_of_type "object" (by simp) (context.type_of_structSchema hdoc)
    have hnull := hkind.not_accepts_null htyped reading
    simpa [Tagging.holdsPayload] using hnull

theorem accepts_union_null_iff {alternatives : List Document} {reading : Reading} :
    accepts reading [("anyOf", .arr (alternatives.map .obj))] .null ↔
      ∃ alternative ∈ alternatives, accepts reading alternative .null := by
  rw [accepts, acceptsAll_iff]
  simp only [List.mem_singleton, forall_eq, acceptsKeyword_anyOf, acceptsSome_iff]
  simp

/-- An enum that is expanded admits null if a variant does that is stored without anything around
it. -/
theorem union_accepts_null_iff {reading : Reading} {N : Shape → Prop} {index : Nat} {type : Enum}
    {place : Location} {doc : Document} (hunion : context.IsUnion active index type place doc)
    (hchild : ∀ variant ∈ type.variants, ∀ shape, variant.payload = .newtype shape →
      ∀ there inner, context.walk Policy.plain (.declared index :: active) shape there = .ok inner →
        (accepts reading inner .null ↔ N shape)) :
    accepts reading doc .null ↔ type.tagging = .untagged ∧ ∃ variant ∈ type.variants,
      variant.payload = .unit ∨ ∃ shape, variant.payload = .newtype shape ∧ N shape := by
  obtain ⟨alternatives, rfl, halternatives⟩ := hunion
  let Admits : Variant → Prop := fun variant =>
    variant.payload = .unit ∨ ∃ shape, variant.payload = .newtype shape ∧ N shape
  have heach : ∀ variant ∈ type.variants, ∀ alternative,
      context.IsAlternative (context.walk Policy.plain (.declared index :: active)) type place
        variant alternative →
      (type.tagging = .untagged ∧ Admits variant ↔ accepts reading alternative .null) := by
    rintro variant hvariant alternative ⟨payload?, hpayload, haccepts⟩
    rw [haccepts reading .null trivial, Tagging.isEncoding_null_iff]
    have hshape : ∀ shape, variant.payload = .newtype shape → ∀ there inner,
        context.walk Policy.plain (.declared index :: active) shape there = .ok inner →
          IsTyped inner ∧ (accepts reading inner .null ↔ N shape) :=
      fun shape heq there inner hinner => ⟨(isFresh_of_plain hinner).typed,
        hchild variant hvariant shape heq there inner hinner⟩
    rw [holdsPayload_null_iff hshape hpayload]
  rw [accepts_union_null_iff, ← exists_mem_iff_of_forall₂ halternatives heach]
  constructor
  · rintro ⟨variant, hvariant, htagging, hadmits⟩
    exact ⟨htagging, variant, hvariant, hadmits⟩
  · rintro ⟨htagging, variant, hvariant, hadmits⟩
    exact ⟨variant, hvariant, htagging, hadmits⟩

theorem mem_parts_of_newtype {graph : Graph} {index : Nat} {type : Enum}
    (hfound : graph.declaration? index = some (.enum type)) {variant : Variant}
    (hvariant : variant ∈ type.variants) (hpayload : variant.payload = .newtype shape) :
    ([.member variant.name], shape) ∈ graph.parts (.declared index) := by
  simp only [Graph.parts, hfound, Option.map_some, Option.getD_some, Declaration.parts]
  refine List.mem_flatMap.mpr ⟨variant, hvariant, ?_⟩
  simp [Variant.parts, hpayload, Payload.parts]

/-- What stands for a node that is met again accepts null for named wrappers and enums. -/
theorem cutSchema_accepts_null_iff {graph : Graph} {strict : Bool} (hnominal : shape.isNominal)
    (hmem : shape ∈ active) (hknown : graph.dangles shape = false) (reading : Reading) :
    accepts reading (cutSchema ⟨graph, strict⟩ shape) .null ↔ graph.Nullable active shape := by
  cases shape with
  | newtype label name inner => exact iff_of_true rfl (.wrapperAgain hmem)
  | declared index =>
    rw [cutSchema, placeholder]
    cases hfound : graph.declaration? index with
    | none => simp [Graph.dangles, hfound] at hknown
    | some type =>
      cases type with
      | enum type => exact iff_of_true rfl (.enumAgain hfound hmem)
      | struct type =>
        refine iff_of_false ?_ fun h => by cases h <;> simp_all
        exact (namesKind_of_type "object" (by simp) rfl).not_accepts_null isTyped_anyObject reading
      | tuple type =>
        refine iff_of_false ?_ fun h => by cases h <;> simp_all
        have htyped := (isFresh_kind (.inl rfl) (by simp : "array" ≠ "null")).typed
        exact (namesKind_of_type "array" (by simp) rfl).not_accepts_null htyped reading
  | _ => cases hnominal

/-- A declared type that is expanded admits null if it is an enum with a variant that does. -/
theorem declared_accepts_null_iff {index : Nat} (hmem : Shape.declared index ∉ active)
    (hchild : context.graph.dangles (.declared index) = false → ∀ steps part,
      (steps, part) ∈ context.graph.parts (.declared index) → ∀ place doc,
        context.walk Policy.plain (.declared index :: active) part place = .ok doc → ∀ reading,
          (accepts reading doc .null ↔ context.graph.Nullable (.declared index :: active) part))
    {place : Location} {doc : Document}
    (hdoc : context.walk Policy.plain active (.declared index) place = .ok doc)
    (reading : Reading) :
    accepts reading doc .null ↔ context.graph.Nullable active (.declared index) := by
  have htyped := (isFresh_of_plain hdoc).typed
  have hlevel := hdoc
  rw [context.plain_of_not_mem place rfl hmem] at hlevel
  cases hfound : context.graph.declaration? index with
  | none =>
    have hdangles : context.graph.dangles (.declared index) := by simp [Graph.dangles, hfound]
    rw [context.level_of_dangles _ place hdangles] at hlevel
    cases hlevel
  | some type =>
    simp only [level, hfound] at hlevel
    cases type with
    | struct type =>
      refine iff_of_false ?_ fun h => by cases h <;> simp_all
      have hkind := namesKind_of_type "object" (by simp) (context.type_of_structSchema hlevel)
      exact hkind.not_accepts_null htyped reading
    | tuple type =>
      refine iff_of_false ?_ fun h => by cases h <;> simp_all
      have hkind := namesKind_of_type "array" (by simp) (type_of_tupleSchema hlevel)
      exact hkind.not_accepts_null htyped reading
    | enum type =>
      have hknown : context.graph.dangles (.declared index) = false := by
        simp [Graph.dangles, hfound]
      rw [Graph.nullable_enum_iff hfound hmem]
      refine union_accepts_null_iff (isUnion_of_plain hfound hmem hdoc) ?_
      intro variant hvariant shape hpayload there inner hinner
      have hpart := mem_parts_of_newtype hfound hvariant hpayload
      exact hchild hknown _ shape hpart there inner hinner reading

/-- The schema of a shape accepts null exactly if the shape admits it. -/
theorem plain_accepts_null_iff (context : Context) (active : List Shape) (shape : Shape) :
    (∀ node ∈ active, context.graph.dangles node = false) → ∀ place doc,
      context.walk Policy.plain active shape place = .ok doc → ∀ reading,
        (accepts reading doc .null ↔ context.graph.Nullable active shape) := by
  induction active, shape using context.graph.expansion_induction with
  | pass active shape hnominal ih =>
    intro hactive place doc hdoc reading
    have htyped := (isFresh_of_plain hdoc).typed
    have hlevel := hdoc
    rw [context.walk_of_not_nominal Policy.plain active place hnominal] at hlevel
    cases hoptional : shape.isOptional with
    | true =>
      cases shape with
      | optional label inner =>
        obtain ⟨given, hgiven, _⟩ := bind_eq_ok.mp hlevel
        obtain ⟨widened, hwidened, _, hwidening⟩ := plain_optional hgiven label place
        cases hdoc.symm.trans hwidened
        have hnull : accepts reading doc .null :=
          ((isFresh_of_plain hgiven).accepts_widening hwidening).mpr (.inr rfl)
        exact iff_of_true hnull (.optional label inner)
      | _ => cases hoptional
    | false =>
      refine iff_of_false ?_ fun h => by cases h <;> simp_all [Shape.isNominal, Shape.isOptional]
      exact (namesKind_of_level hnominal hoptional hlevel).not_accepts_null htyped reading
  | cut active shape hnominal hmem =>
    intro hactive place doc hdoc reading
    rw [context.plain_of_mem place hnominal hmem] at hdoc
    cases hdoc
    exact cutSchema_accepts_null_iff hnominal hmem (hactive shape hmem) reading
  | expand active shape hnominal hmem ih =>
    intro hactive place doc hdoc reading
    cases shape with
    | newtype label name inner =>
      rw [context.plain_of_not_mem place hnominal hmem] at hdoc
      have hopened : ∀ node ∈ .newtype label name inner :: active,
          context.graph.dangles node = false := List.forall_mem_cons.mpr ⟨rfl, hactive⟩
      have hinner := ih [] inner List.mem_cons_self hopened place doc hdoc reading
      refine hinner.trans ⟨.wrapper, fun h => ?_⟩
      cases h with
      | wrapper h => exact h
      | wrapperAgain hagain => exact absurd hagain hmem
    | declared index =>
      refine declared_accepts_null_iff hmem (fun hknown steps part hpart => ?_) hdoc reading
      exact ih steps part hpart (List.forall_mem_cons.mpr ⟨hknown, hactive⟩)
    | _ => cases hnominal

theorem derive?_accepts_null_iff {c : Constraints} {doc : Document}
    (hdoc : context.derive? shape c = .ok doc) (reading : Reading) :
    accepts reading doc .null ↔ context.graph.Nullable [] shape := by
  refine constrained_accepts_null (fun place inner hinner => ?_) hdoc
  have hnull := context.plain_accepts_null_iff [] shape (by simp) place inner hinner reading
  exact ⟨(isFresh_of_plain hinner).typed, hnull⟩

end Context

/-- The copy of an optional shape is an optional copy of the shape. -/
theorem Graph.substitute_optional {graph other : Graph} {root shape : Shape} {bindings : Bindings}
    (hsubst : graph.substitute bindings root = (shape, other)) (label : Nat) :
    ∃ copy extended, graph.substitute bindings (.optional label root) =
        (.optional copy shape, extended) ∧ extended.declarations = other.declarations := by
  unfold Graph.substitute at hsubst ⊢
  cases hempty : bindings.isEmpty with
  | true =>
    rw [hempty] at hsubst
    cases hsubst
    exact ⟨label, graph, rfl, rfl⟩
  | false =>
    rw [hempty] at hsubst
    rcases hvisit : (Substitution.visit bindings graph.declarations.size root).run ⟨graph, []⟩ with
      ⟨result, state⟩
    simp only [hvisit, Bool.false_eq_true, if_false] at hsubst ⊢
    cases hsubst
    rw [Substitution.visit_wrapper _ _ rfl, Substitution.run_once]
    simp only [List.lookup_nil]
    have hwrap : (do
        let inner ← Substitution.visit bindings graph.declarations.size root
        Substitution.rewrap (.optional label root) root (Shape.optional label root).refill
          inner).run ⟨graph, []⟩ =
        (Substitution.rewrap (.optional label root) root .optional shape).run state := by
      rw [StateT.run_bind, hvisit]
      rfl
    rw [hwrap, Substitution.State.run_rewrap]
    split
    · next hkept =>
      subst hkept
      exact ⟨label, state.graph, rfl, rfl⟩
    · exact ⟨state.graph.labels, state.graph.freshLabel.2, rfl, rfl⟩

/-- A root with a schema has one as an optional shape too. -/
theorem Graph.derive_of_optional (graph : Graph) (settings : DeriveSettings) {root : Shape}
    {c : Constraints} {bindings : Bindings} {doc : Document}
    (hdoc : graph.derive settings root c bindings = .ok doc) (label : Nat) :
    ∃ widened, graph.derive settings (.optional label root) c bindings = .ok widened ∧
      Context.AddsNull doc widened := by
  rcases hsubst : graph.substitute bindings root with ⟨shape, other⟩
  obtain ⟨copy, extended, hcopy, hsame⟩ := Graph.substitute_optional hsubst label
  rw [graph.derive_eq hsubst] at hdoc
  rw [graph.derive_eq hcopy, Graph.derive?_of_declarations hsame]
  exact Context.constrained_optional hdoc copy _

/-- An optional shape has a schema wherever the shape has one, which accepts null beside; a second
wrapper adds nothing. The schema of a root accepts null exactly if the root admits it. -/
theorem Graph.derive_optionality {graph other : Graph} {root shape : Shape} {bindings : Bindings}
    (hsubst : graph.substitute bindings root = (shape, other)) (settings : DeriveSettings) :
    (∀ active part c place doc,
      Context.constrained ⟨other, settings.strictObjects⟩
          (Context.walk ⟨other, settings.strictObjects⟩ Policy.plain active) part c place = .ok doc →
        ∀ label there, ∃ widened,
          Context.constrained ⟨other, settings.strictObjects⟩
              (Context.walk ⟨other, settings.strictObjects⟩ Policy.plain active)
              (.optional label part) c there = .ok widened ∧ Context.AddsNull doc widened) ∧
      ∀ c doc, graph.derive settings root c bindings = .ok doc →
        (∀ label, ∃ widened,
          graph.derive settings (.optional label root) c bindings = .ok widened ∧
            Context.AddsNull doc widened ∧ ∀ outer, ∃ twice,
              graph.derive settings (.optional outer (.optional label root)) c bindings =
                  .ok twice ∧
                ∀ reading value, accepts reading twice value ↔ accepts reading widened value) ∧
          ∀ reading, accepts reading doc .null ↔ other.Nullable [] shape := by
  refine ⟨fun active part c place doc hdoc label there =>
    Context.constrained_optional hdoc label there, fun c doc hdoc => ⟨fun label => ?_, ?_⟩⟩
  · obtain ⟨widened, hwidened, hadds⟩ := graph.derive_of_optional settings hdoc label
    refine ⟨widened, hwidened, hadds, fun outer => ?_⟩
    obtain ⟨twice, htwice, hagain⟩ := graph.derive_of_optional settings hwidened outer
    refine ⟨twice, htwice, fun reading value => ?_⟩
    rw [hagain, hadds, or_assoc, or_self]
  · rw [graph.derive_eq hsubst] at hdoc
    exact fun reading => Context.derive?_accepts_null_iff hdoc reading

def maybeType : Enum :=
  ⟨"Maybe", [⟨"Nothing", .unit, .none, by decide⟩,
    ⟨"Just", .newtype (.primitive .u8), .none, by decide⟩], .untagged, none⟩

def maybeGraph : Graph where
  declarations := #[.enum maybeType]
  labels := 2

def maybeSchema : Document :=
  [("anyOf", .arr [
    .obj [("type", .arr [.str "array", .str "null"]), ("maxItems", .num (.int 0))],
    .obj [("bsonType", .str "int"), ("minimum", .num (.int 0))]])]

/-- A wrapper of such numbers admits null, for a missing number; as an optional shape it admits
nothing else beside. -/
theorem derive_optionality_maybe :
    maybeGraph.derive .default (.newtype 0 "Level" (.declared 0)) .none [] = .ok maybeSchema ∧
      (∀ reading, accepts reading maybeSchema .null) ∧
      ∃ widened, maybeGraph.derive .default (.optional 1 (.newtype 0 "Level" (.declared 0))) .none
        [] = .ok widened ∧ Context.AddsNull maybeSchema widened := by
  have hderive : maybeGraph.derive .default (.newtype 0 "Level" (.declared 0)) .none [] =
      .ok maybeSchema := by
    rw [Graph.derive_nil]
    cbv
  have hsubst : maybeGraph.substitute [] (.newtype 0 "Level" (.declared 0)) =
      (.newtype 0 "Level" (.declared 0), maybeGraph) := rfl
  have hnullable : maybeGraph.Nullable [] (.newtype 0 "Level" (.declared 0)) := by
    have hfound : maybeGraph.declaration? 0 = some (.enum maybeType) := rfl
    have hunit : maybeType.variants.head (by decide) ∈ maybeType.variants := List.head_mem _
    exact .wrapper (.unitVariant hfound rfl hunit rfl)
  obtain ⟨hoptional, hnull⟩ := (Graph.derive_optionality hsubst .default).2 _ _ hderive
  obtain ⟨widened, hwidened, hadds, _⟩ := hoptional 1
  exact ⟨hderive, fun reading => (hnull reading).mpr hnullable, widened, hwidened, hadds⟩

end ShapeSchema
