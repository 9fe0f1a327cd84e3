import ShapeSchema.Proofs.Acceptance.Bounds
import ShapeSchema.Proofs.Acceptance.Encoding
import ShapeSchema.Proofs.Derivation.Unrolling
import ShapeSchema.Proofs.Shape.Parts

/-!
When one level of a derivation succeeds. It takes that the parts have schemas, that the shape itself
is in order, whatever the schemas of its parts are, and that no tag meets a property of its name in
the schema of a payload.
-/

namespace ShapeSchema

def Succeeds {ε α : Type} (x : Except ε α) : Prop :=
  ∃ a, x = .ok a

section Success

variable {ε α β : Type}

theorem succeeds_ok (a : α) : Succeeds (.ok a : Except ε α) :=
  ⟨a, rfl⟩

theorem not_succeeds_error (e : ε) : ¬ Succeeds (.error e : Except ε α) := by
  rintro ⟨a, h⟩
  cases h

theorem succeeds_unit {x : Except ε Unit} : Succeeds x ↔ x = .ok () :=
  ⟨fun ⟨_, h⟩ => h, fun h => ⟨(), h⟩⟩

theorem succeeds_bind {x : Except ε α} {f : α → Except ε β} :
    Succeeds (x >>= f) ↔ ∃ a, x = .ok a ∧ Succeeds (f a) := by
  constructor
  · rintro ⟨b, h⟩
    obtain ⟨a, hx, hf⟩ := bind_eq_ok.mp h
    exact ⟨a, hx, b, hf⟩
  · rintro ⟨a, hx, b, hf⟩
    exact ⟨b, bind_eq_ok.mpr ⟨a, hx, hf⟩⟩

/-- A sequence succeeds if both steps do, where the second one does not look at the first result. -/
theorem succeeds_bind_iff {x : Except ε α} {f : α → Except ε β} {P : Prop}
    (hf : ∀ a, x = .ok a → (Succeeds (f a) ↔ P)) : Succeeds (x >>= f) ↔ Succeeds x ∧ P := by
  rw [succeeds_bind]
  constructor
  · rintro ⟨a, hx, hrest⟩
    exact ⟨⟨a, hx⟩, (hf a hx).mp hrest⟩
  · rintro ⟨⟨a, hx⟩, hp⟩
    exact ⟨a, hx, (hf a hx).mpr hp⟩

theorem succeeds_map {x : Except ε α} {f : α → β} :
    Succeeds (x >>= fun a => pure (f a)) ↔ Succeeds x := by
  have h := succeeds_bind_iff (x := x) (f := fun a => pure (f a)) (P := True) fun a _ =>
    ⟨fun _ => trivial, fun _ => ⟨f a, rfl⟩⟩
  exact h.trans (iff_of_eq (and_true _))

theorem succeeds_mapM {f : α → Except ε β} {xs : List α} :
    Succeeds (xs.mapM f) ↔ ∀ x ∈ xs, Succeeds (f x) := by
  simp only [Succeeds, mapM_eq_ok, exists_forall₂_iff]

theorem located_eq_ok {place : Location} {x : Except Defect α} {a : α} :
    (Context.located place x : Except SchemaError α) = .ok a ↔ x = .ok a := by
  cases x with
  | ok b => exact ⟨fun h => by cases h; rfl, fun h => by cases h; rfl⟩
  | error defect => exact ⟨nofun, nofun⟩

theorem succeeds_located {place : Location} {x : Except Defect α} :
    Succeeds (Context.located place x : Except SchemaError α) ↔ Succeeds x :=
  exists_congr fun _ => located_eq_ok

theorem guarded_eq_ok {P : Prop} [Decidable P] {place : Location} {defect : Defect}
    {x : Except SchemaError α} {a : α} :
    (if P then (do Context.fail place defect; x) else x) = .ok a ↔ ¬ P ∧ x = .ok a := by
  by_cases hP : P
  · rw [if_pos hP]
    exact ⟨nofun, fun hrest => absurd hP hrest.1⟩
  · rw [if_neg hP]
    exact ⟨fun hx => ⟨hP, hx⟩, fun hrest => hrest.2⟩

/-- A step behind a guard succeeds if the guard lets it. -/
theorem succeeds_guarded {P : Prop} [Decidable P] {place : Location} {defect : Defect}
    {x : Except SchemaError α} :
    Succeeds (if P then (do Context.fail place defect; x) else x) ↔ ¬ P ∧ Succeeds x :=
  (exists_congr fun _ => guarded_eq_ok).trans exists_and_left

end Success

namespace Tagging

theorem succeeds_encode_unit (tagging : Tagging) (key : String) (mergeable : Bool) :
    Succeeds (tagging.encode ⟨key, none, mergeable⟩) := by
  cases tagging <;> exact succeeds_ok _

/-- A payload can stand beside a tag if it is mergeable and has no property of that name. -/
theorem succeeds_encode_iff (tagging : Tagging) (key : String) (mergeable : Bool) {d : Document}
    (hd : Schema.IsTyped d) :
    Succeeds (tagging.encode ⟨key, some (.obj d), mergeable⟩) ↔
      ∀ tag, tagging = .internal tag → mergeable ∧ ¬ (propertiesOf d).has tag := by
  cases tagging with
  | internal tag =>
    simp only [encode, internal.injEq, forall_eq']
    cases mergeable with
    | false => exact ⟨fun h => absurd h (not_succeeds_error _), fun h => absurd h.1 (by simp)⟩
    | true =>
      rw [if_pos rfl, Schema.mergeTag_of_isTyped hd]
      cases (propertiesOf d).has tag with
      | true => exact ⟨fun h => absurd h (not_succeeds_error _), fun h => absurd rfl h.2⟩
      | false => exact ⟨fun _ => ⟨rfl, Bool.false_ne_true⟩, fun _ => succeeds_ok _⟩
  | _ =>
    refine ⟨fun _ tag htag => ?_, fun _ => succeeds_ok _⟩
    cases htag

theorem succeeds_encodeUnion (tagging : Tagging) {encoded : List EncodedVariant} :
    Succeeds (tagging.encodeUnion encoded) ↔
      tagging.check = .ok () ∧ encoded ≠ [] ∧ ∀ v ∈ encoded, Succeeds (tagging.encode v) := by
  cases encoded with
  | nil =>
    refine ⟨fun h => ?_, fun h => absurd rfl h.2.1⟩
    obtain ⟨_, _, hempty⟩ := succeeds_bind.mp h
    exact absurd hempty (not_succeeds_error _)
  | cons first rest =>
    have hunion : tagging.encodeUnion (first :: rest) = (do
        tagging.check
        let alternatives ← (first :: rest).mapM tagging.encode
        return [("anyOf", .arr alternatives)]) := rfl
    rw [hunion, succeeds_bind_iff fun _ _ => succeeds_map.trans succeeds_mapM, succeeds_unit]
    exact and_congr_right fun _ => ⟨fun h => ⟨nofun, h⟩, fun h => h.2⟩

end Tagging

/-- Whether constraints are well formed and no bounds are put on anything but a number. -/
structure Constraints.Fit (c : Constraints) (shape : Shape) : Prop where
  check : c.check = .ok ()
  number : c.hasBounds → ∃ kind, shape.unwrapped = .primitive kind ∧ kind.isNumeric

def fieldKeys (rule : Option RenameRule) (fields : List Field) : List String :=
  fields.map fun field => fieldKey field.name field.constraints.rename rule

def variantKeys (rule : Option RenameRule) (variants : List Variant) : List String :=
  variants.map fun variant => variantKey variant.name variant.constraints.rename rule

structure FieldsFit (rule : Option RenameRule) (fields : List Field) : Prop where
  keys : (fieldKeys rule fields).Nodup
  fit : ∀ field ∈ fields, field.constraints.Fit field.shape

/-- Whether the constraints of a variant and of what it carries fit. Only a variant with a single
payload may have bounds, and only its constraints are checked. -/
def Variant.Fits (variant : Variant) : Prop :=
  match variant.payload with
  | .newtype shape => variant.constraints.Fit shape
  | .struct fields => variant.constraints.hasBounds = false ∧ FieldsFit none fields
  | _ => variant.constraints.hasBounds = false

/-- Whether a tag can stand beside what a payload stores. -/
def Context.isMergeable (context : Context) : Payload → Bool
  | .unit | .struct _ => true
  | .newtype shape => context.isObjectPayload shape
  | .tuple _ => false

theorem Context.struct_of_isObjectPayload {context : Context} {index : Nat}
    (hobject : context.isObjectPayload (.declared index)) :
    ∃ type, context.graph.declaration? index = some (.struct type) := by
  simp only [isObjectPayload, Shape.underlying] at hobject
  split at hobject
  · next type hfound => exact ⟨type, hfound⟩
  · cases hobject

/-- Whether an enum is in order, whatever the schemas of its payloads are. -/
structure Enum.Fits (context : Context) (type : Enum) : Prop where
  keys : (variantKeys type.renameAll type.variants).Nodup
  variants : ∀ variant ∈ type.variants, variant.Fits
  tagging : type.tagging.check = .ok ()
  inhabited : type.variants ≠ []
  mergeable : ∀ tag, type.tagging = .internal tag →
    ∀ variant ∈ type.variants, context.isMergeable variant.payload

/-- Whether a shape is in order, whatever the schemas of its parts are. -/
def Context.Fits (context : Context) : Shape → Prop
  | .map _ key _ => key.isText
  | .generic .. | .raw _ => False
  | .declared index =>
    match context.graph.declaration? index with
    | some (.struct type) => FieldsFit type.renameAll type.fields
    | some (.tuple _) => True
    | some (.enum type) => type.Fits context
    | none => False
  | _ => True

def Payload.keys (listed : Shape → List String) : Payload → List String
  | .newtype shape => listed shape
  | .struct fields => fieldKeys none fields
  | _ => []

/-- Whether no tag of an enum is a property of a payload beside which it stands. -/
def Enum.KeepsApart (listed : Shape → List String) (type : Enum) : Prop :=
  ∀ tag, type.tagging = .internal tag → ∀ variant ∈ type.variants,
    tag ∉ variant.payload.keys listed

def Graph.KeepsApart (graph : Graph) (listed : Shape → List String) : Shape → Prop
  | .declared index =>
    ∀ type, graph.declaration? index = some (.enum type) → type.KeepsApart listed
  | _ => True

structure Field.Becomes (child : Shape → Location → Except SchemaError Document)
    (rule : Option RenameRule) (place : Location) (field : Field) (property : Context.Property) :
    Prop where
  key : property.key = fieldKey field.name field.constraints.rename rule
  required : property.required = !field.shape.isOptional
  schema : field.constraints.Fit field.shape ∧ ∃ inner,
    child field.shape (place.push (.member field.name)) = .ok inner ∧
      property.schema = if field.constraints.hasBounds then field.constraints.bounded inner
        else inner

/-- Which shapes have schemas, and which properties these list. -/
structure Provides (child : Shape → Location → Except SchemaError Document) (D : Shape → Prop)
    (listed : Shape → List String) : Prop where
  succeeds : ∀ shape place, Succeeds (child shape place) ↔ D shape
  typed : ∀ {shape place doc}, child shape place = .ok doc → Schema.IsTyped doc
  listed : ∀ {shape place doc}, child shape place = .ok doc →
    ∀ key, (Tagging.propertiesOf doc).has key ↔ key ∈ listed shape

namespace Context

variable (context : Context) {child : Shape → Location → Except SchemaError Document}
  {D : Shape → Prop} {listed : Shape → List String}

theorem applyBounds_eq_ok {shape : Shape} {c : Constraints} {doc bounded : Document} :
    context.applyBounds shape c doc = .ok bounded ↔
      (∃ kind, shape.unwrapped = .primitive kind ∧ kind.isNumeric) ∧ bounded = c.bounded doc := by
  unfold applyBounds
  split
  · next kind hkind =>
    rw [hkind]
    cases hnumeric : kind.isNumeric with
    | true =>
      constructor
      · intro h
        cases h
        exact ⟨⟨kind, rfl, hnumeric⟩, rfl⟩
      · rintro ⟨_, rfl⟩
        rfl
    | false =>
      constructor
      · intro h
        cases h
      · rintro ⟨⟨other, hother, htrue⟩, _⟩
        cases hother
        simp [hnumeric] at htrue
  · next hother =>
    constructor
    · intro h
      cases h
    · rintro ⟨⟨kind, hkind, _⟩, _⟩
      exact absurd hkind (hother kind)

/-- Constraints that fit a shape set its bounds, if they have some. -/
theorem constrained_eq_ok {shape : Shape} {c : Constraints} {place : Location} {doc : Document} :
    context.constrained child shape c place = .ok doc ↔ c.Fit shape ∧
      ∃ inner, child shape place = .ok inner ∧
        doc = if c.hasBounds then c.bounded inner else inner := by
  rw [constrained, bind_eq_ok]
  simp only [located_eq_ok, bind_eq_ok]
  constructor
  · rintro ⟨_, hcheck, inner, hinner, hdoc⟩
    cases hbounds : c.hasBounds with
    | true =>
      rw [if_pos hbounds, located_eq_ok, applyBounds_eq_ok] at hdoc
      exact ⟨⟨hcheck, fun _ => hdoc.1⟩, inner, hinner, hdoc.2⟩
    | false =>
      rw [hbounds] at hdoc
      cases hdoc
      exact ⟨⟨hcheck, by simp [hbounds]⟩, _, hinner, rfl⟩
  · rintro ⟨hfit, inner, hinner, rfl⟩
    refine ⟨(), hfit.check, inner, hinner, ?_⟩
    cases hbounds : c.hasBounds with
    | true =>
      rw [if_pos rfl, located_eq_ok, applyBounds_eq_ok]
      exact ⟨hfit.number hbounds, rfl⟩
    | false => rfl

/-- Fields with different keys become properties one by one. -/
theorem properties_eq_ok {rule : Option RenameRule} {place : Location} {used : List String}
    {fields : List Field} {listed : List Property} :
    context.properties child rule place used fields = .ok listed ↔
      FreshKeys used (fieldKeys rule fields) ∧
        List.Forall₂ (Field.Becomes child rule place) fields listed := by
  induction fields generalizing used listed with
  | nil =>
    rw [List.forall₂_nil_left_iff]
    constructor
    · intro h
      cases h
      exact ⟨⟨List.nodup_nil, by simp [fieldKeys]⟩, rfl⟩
    · rintro ⟨_, rfl⟩
      rfl
  | cons field rest ih =>
    have hkeys : fieldKeys rule (field :: rest) =
        fieldKey field.name field.constraints.rename rule :: fieldKeys rule rest := rfl
    rw [properties, guarded_eq_ok, hkeys, freshKeys_cons, List.forall₂_cons_left_iff]
    constructor
    · rintro ⟨hfresh, h⟩
      obtain ⟨schema, hschema, h⟩ := bind_eq_ok.mp h
      obtain ⟨more, hmore, h⟩ := bind_eq_ok.mp h
      cases h
      obtain ⟨hrest, hbecome⟩ := ih.mp hmore
      exact ⟨⟨hfresh, hrest⟩, _, more, ⟨rfl, rfl, context.constrained_eq_ok.mp hschema⟩, hbecome,
        rfl⟩
    · rintro ⟨⟨hfresh, hrest⟩, property, more, hhead, hbecome, rfl⟩
      refine ⟨hfresh, bind_eq_ok.mpr ⟨property.schema, ?_, bind_eq_ok.mpr ⟨more, ?_, ?_⟩⟩⟩
      · exact context.constrained_eq_ok.mpr hhead.schema
      · exact ih.mpr ⟨hrest, hbecome⟩
      · rw [← hhead.key, ← hhead.required]
        rfl

/-- The properties of fields have the keys of these. -/
theorem keys_properties {rule : Option RenameRule} {place : Location} {used : List String}
    {fields : List Field} {listed : List Property}
    (hlisted : context.properties child rule place used fields = .ok listed) :
    listed.map Property.key = fieldKeys rule fields := by
  obtain ⟨_, hbecome⟩ := context.properties_eq_ok.mp hlisted
  have hkeys : List.Forall₂ (· = ·) (listed.map Property.key) (fieldKeys rule fields) := by
    rw [fieldKeys, List.forall₂_map_left_iff, List.forall₂_map_right_iff]
    exact hbecome.flip.imp fun _ _ h => h.key
  exact List.forall₂_eq_eq_eq ▸ hkeys

/-- The schema of a payload, given those of the shapes in it; a unit variant has none. -/
def payloadSchema (context : Context) (child : Shape → Location → Except SchemaError Document)
    (variant : Variant) (place : Location) : Except SchemaError (Option Document) :=
  match variant.payload with
  | .unit => .ok none
  | .newtype shape => some <$> context.constrained child shape variant.constraints place
  | .tuple shapes => some <$> tupleSchema child shapes place
  | .struct fields => some <$> context.structSchema child fields none .unspecified place

/-- An encoded variant has the key of the variant and the schema of its payload; only a variant with
a single payload may have bounds. -/
theorem encodedVariant_eq_ok {rule : Option RenameRule} {place : Location} {variant : Variant}
    {encoded : EncodedVariant} :
    context.encodedVariant child rule place variant = .ok encoded ↔
      ((∀ shape, variant.payload ≠ .newtype shape) → variant.constraints.hasBounds = false) ∧
        ∃ payload?, context.payloadSchema child variant (place.push (.member variant.name)) =
            .ok payload? ∧
          encoded = ⟨variantKey variant.name variant.constraints.rename rule, payload?.map .obj,
            payload?.isSome && context.isMergeable variant.payload⟩ := by
  obtain ⟨name, payload, c, hname⟩ := variant
  simp only [encodedVariant, payloadSchema]
  have hwith : ∀ (x : Except SchemaError Document) (key : String) (mergeable : Bool),
      (x >>= fun doc => pure ⟨key, some (.obj doc), mergeable⟩) = .ok encoded ↔
        ∃ payload?, some <$> x = .ok payload? ∧
          encoded = ⟨key, payload?.map .obj, payload?.isSome && mergeable⟩ := by
    intro x key mergeable
    simp only [bind_eq_ok, map_eq_ok]
    constructor
    · rintro ⟨doc, hdoc, heq⟩
      cases heq
      exact ⟨some doc, ⟨doc, hdoc, rfl⟩, rfl⟩
    · rintro ⟨_, ⟨doc, hdoc, rfl⟩, rfl⟩
      exact ⟨doc, hdoc, rfl⟩
  have hother : ∀ payload : Payload, (∀ shape, payload ≠ .newtype shape) →
      (((∀ shape, payload ≠ .newtype shape) → c.hasBounds = false) ↔ ¬ c.hasBounds = true) :=
    fun payload hne => by simp [hne]
  cases payload with
  | newtype shape =>
    rw [hwith]
    exact ⟨fun h => ⟨fun hne => absurd rfl (hne shape), h⟩, And.right⟩
  | unit =>
    rw [guarded_eq_ok, hother .unit (by simp)]
    refine and_congr_right fun _ => ⟨fun h => ?_, ?_⟩
    · cases h
      exact ⟨none, rfl, rfl⟩
    · rintro ⟨_, ⟨⟩, rfl⟩
      rfl
  | tuple shapes => rw [guarded_eq_ok, hwith, hother (.tuple shapes) (by simp)]; rfl
  | struct fields => rw [guarded_eq_ok, hwith, hother (.struct fields) (by simp)]; rfl

/-- A variant has its key whatever it carries. -/
theorem key_encodedVariant {rule : Option RenameRule} {place : Location}
    {variant : Variant} {encoded : EncodedVariant}
    (h : context.encodedVariant child rule place variant = .ok encoded) :
    encoded.key = variantKey variant.name variant.constraints.rename rule := by
  obtain ⟨_, payload?, _, rfl⟩ := context.encodedVariant_eq_ok.mp h
  rfl

/-- Variants with different keys are encoded one by one. -/
theorem encodedVariants_eq_ok {rule : Option RenameRule} {place : Location}
    {used : List String} {variants : List Variant} {encoded : List EncodedVariant} :
    context.encodedVariants child rule place used variants = .ok encoded ↔
      FreshKeys used (variantKeys rule variants) ∧
        List.Forall₂ (fun v e => context.encodedVariant child rule place v = .ok e) variants
          encoded := by
  induction variants generalizing used encoded with
  | nil =>
    rw [List.forall₂_nil_left_iff]
    constructor
    · intro h
      cases h
      exact ⟨⟨List.nodup_nil, by simp [variantKeys]⟩, rfl⟩
    · rintro ⟨_, rfl⟩
      rfl
  | cons variant rest ih =>
    have hkeys : variantKeys rule (variant :: rest) =
        variantKey variant.name variant.constraints.rename rule :: variantKeys rule rest := rfl
    rw [encodedVariants, bind_eq_ok, hkeys, freshKeys_cons, List.forall₂_cons_left_iff]
    constructor
    · rintro ⟨first, hfirst, h⟩
      obtain ⟨hfresh, h⟩ := guarded_eq_ok.mp h
      obtain ⟨more, hmore, h⟩ := bind_eq_ok.mp h
      cases h
      obtain ⟨hrest, hencoded⟩ := ih.mp hmore
      rw [context.key_encodedVariant hfirst] at hfresh hrest
      exact ⟨⟨hfresh, hrest⟩, first, more, hfirst, hencoded, rfl⟩
    · rintro ⟨⟨hfresh, hrest⟩, first, more, hfirst, hencoded, rfl⟩
      refine ⟨first, hfirst, guarded_eq_ok.mpr ⟨?_, bind_eq_ok.mpr ⟨more, ?_, rfl⟩⟩⟩
      · rw [context.key_encodedVariant hfirst]
        exact hfresh
      · rw [context.key_encodedVariant hfirst]
        exact ih.mpr ⟨hrest, hencoded⟩

variable (h : Provides child D listed)
include h

theorem succeeds_constrained {shape : Shape} {c : Constraints} {place : Location} :
    Succeeds (context.constrained child shape c place) ↔ c.Fit shape ∧ D shape := by
  rw [← h.succeeds shape place]
  constructor
  · rintro ⟨doc, hdoc⟩
    obtain ⟨hfit, inner, hinner, _⟩ := context.constrained_eq_ok.mp hdoc
    exact ⟨hfit, inner, hinner⟩
  · rintro ⟨hfit, inner, hinner⟩
    exact ⟨_, context.constrained_eq_ok.mpr ⟨hfit, inner, hinner, rfl⟩⟩

/-- Bounds leave the properties of a schema alone. -/
theorem listed_constrained {shape : Shape} {c : Constraints} {place : Location} {doc : Document}
    (hdoc : context.constrained child shape c place = .ok doc) :
    Schema.IsTyped doc ∧ ∀ key, (Tagging.propertiesOf doc).has key ↔ key ∈ listed shape := by
  obtain ⟨_, inner, hinner, rfl⟩ := context.constrained_eq_ok.mp hdoc
  split
  · rw [Schema.propertiesOf_bounded]
    exact ⟨(h.typed hinner).bounded c, h.listed hinner⟩
  · exact ⟨h.typed hinner, h.listed hinner⟩

theorem succeeds_properties {rule : Option RenameRule} {place : Location} {used : List String}
    {fields : List Field} :
    Succeeds (context.properties child rule place used fields) ↔
      FreshKeys used (fieldKeys rule fields) ∧
        ∀ field ∈ fields, field.constraints.Fit field.shape ∧ D field.shape := by
  simp only [Succeeds, context.properties_eq_ok, exists_and_left, exists_forall₂_iff]
  refine and_congr_right fun _ => forall₂_congr fun field _ => ?_
  rw [← h.succeeds field.shape (place.push (.member field.name))]
  constructor
  · rintro ⟨property, hproperty⟩
    obtain ⟨hfit, inner, hinner, _⟩ := hproperty.schema
    exact ⟨hfit, inner, hinner⟩
  · rintro ⟨hfit, inner, hinner⟩
    exact ⟨⟨_, _, _⟩, rfl, rfl, hfit, inner, hinner, rfl⟩

theorem succeeds_additional {extra : Extra} {place : Location} :
    Succeeds (context.additional child extra place) ↔ EachPart D extra.parts := by
  cases extra with
  | unspecified => exact ⟨fun _ => eachPart_nil, fun _ => succeeds_ok _⟩
  | allowed allowed => exact ⟨fun _ => eachPart_nil, fun _ => succeeds_ok _⟩
  | values shape =>
    rw [additional, succeeds_map, h.succeeds]
    exact eachPart_singleton.symm

theorem succeeds_structSchema {fields : List Field} {rule : Option RenameRule} {extra : Extra}
    {place : Location} :
    Succeeds (context.structSchema child fields rule extra place) ↔
      FieldsFit rule fields ∧ (∀ field ∈ fields, D field.shape) ∧ EachPart D extra.parts := by
  rw [structSchema, succeeds_bind_iff fun _ _ => succeeds_map.trans (context.succeeds_additional h),
    context.succeeds_properties h, freshKeys_nil]
  constructor
  · rintro ⟨⟨hkeys, hfields⟩, hextra⟩
    exact ⟨⟨hkeys, fun field hmem => (hfields field hmem).1⟩,
      fun field hmem => (hfields field hmem).2, hextra⟩
  · rintro ⟨⟨hkeys, hfit⟩, hshapes, hextra⟩
    exact ⟨⟨hkeys, fun field hmem => ⟨hfit field hmem, hshapes field hmem⟩⟩, hextra⟩

omit h in
/-- The schema of a record lists the keys of its fields. -/
theorem listed_structSchema {fields : List Field} {rule : Option RenameRule} {extra : Extra}
    {place : Location} {doc : Document}
    (hdoc : context.structSchema child fields rule extra place = .ok doc) :
    Schema.IsTyped doc ∧
      ∀ key, (Tagging.propertiesOf doc).has key ↔ key ∈ fieldKeys rule fields := by
  obtain ⟨properties, hproperties, hdoc⟩ := bind_eq_ok.mp hdoc
  obtain ⟨further, _, hdoc⟩ := bind_eq_ok.mp hdoc
  cases hdoc
  refine ⟨Schema.isTyped_objectSchema _ _, fun key => ?_⟩
  rw [Schema.propertiesOf_objectSchema, Document.has_eq_mem, ← context.keys_properties hproperties]
  simp [Document.keys]

theorem succeeds_elements {place : Location} {position : Nat} {shapes : List Shape} :
    Succeeds (elements child place position shapes) ↔ ∀ shape ∈ shapes, D shape := by
  induction shapes generalizing position with
  | nil => exact ⟨fun _ => by simp, fun _ => succeeds_ok []⟩
  | cons shape rest ih =>
    rw [elements, succeeds_bind_iff fun _ _ => succeeds_map.trans ih, h.succeeds,
      List.forall_mem_cons]

theorem succeeds_tupleSchema {place : Location} {shapes : List Shape} :
    Succeeds (tupleSchema child shapes place) ↔ ∀ shape ∈ shapes, D shape :=
  succeeds_map.trans (succeeds_elements h)

omit h in
theorem isTyped_tupleSchema {shapes : List Shape} {place : Location} {doc : Document}
    (hdoc : tupleSchema child shapes place = .ok doc) : Schema.IsTyped doc := by
  obtain ⟨items, _, hdoc⟩ := bind_eq_ok.mp hdoc
  cases hdoc
  have hitems : List.Forall₂ Schema.Within items items :=
    List.forall₂_same.mpr fun item _ => .refl item
  exact (Schema.outdoes_tuple hitems).tightens.left

theorem succeeds_encodedVariant {rule : Option RenameRule} {place : Location}
    {variant : Variant} :
    Succeeds (context.encodedVariant child rule place variant) ↔
      variant.Fits ∧ EachPart D variant.payload.parts := by
  obtain ⟨name, payload, c, hname⟩ := variant
  simp only [encodedVariant, Variant.Fits]
  cases payload with
  | newtype shape =>
    rw [succeeds_map, context.succeeds_constrained h]
    exact and_congr_right fun _ => eachPart_singleton.symm
  | unit =>
    rw [succeeds_guarded, Bool.not_eq_true]
    exact and_congr_right fun _ => ⟨fun _ => eachPart_nil, fun _ => succeeds_ok _⟩
  | tuple shapes =>
    rw [succeeds_guarded, succeeds_map, succeeds_tupleSchema h, Bool.not_eq_true]
    exact and_congr_right fun _ => eachPart_tuple.symm
  | struct fields =>
    rw [succeeds_guarded, succeeds_map, context.succeeds_structSchema h, Bool.not_eq_true,
      and_assoc]
    refine and_congr_right fun _ => and_congr_right fun _ => ?_
    exact ⟨fun hparts => eachPart_fields.mpr hparts.1,
      fun hparts => ⟨eachPart_fields.mp hparts, eachPart_nil⟩⟩

/-- Unless it is a unit variant, an encoded variant has the schema of its payload, which lists the
properties that a tag would stand beside. -/
theorem encodedVariant_cases {rule : Option RenameRule} {place : Location} {variant : Variant}
    {encoded : EncodedVariant}
    (hencoded : context.encodedVariant child rule place variant = .ok encoded) :
    encoded.schema? = none ∧ variant.payload = .unit ∨
      ∃ doc, encoded.schema? = some (.obj doc) ∧ Schema.IsTyped doc ∧
        encoded.mergeable = context.isMergeable variant.payload ∧
        (encoded.mergeable → ∀ key,
          (Tagging.propertiesOf doc).has key ↔ key ∈ variant.payload.keys listed) := by
  obtain ⟨_, payload?, hpayload, rfl⟩ := context.encodedVariant_eq_ok.mp hencoded
  obtain ⟨name, payload, c, hname⟩ := variant
  cases payload with
  | newtype shape =>
    obtain ⟨doc, hdoc, rfl⟩ := map_eq_ok.mp hpayload
    obtain ⟨htyped, hkeys⟩ := context.listed_constrained h hdoc
    exact .inr ⟨doc, rfl, htyped, rfl, fun _ => hkeys⟩
  | unit =>
    cases hpayload
    exact .inl ⟨rfl, rfl⟩
  | tuple shapes =>
    obtain ⟨doc, hdoc, rfl⟩ := map_eq_ok.mp hpayload
    exact .inr ⟨doc, rfl, isTyped_tupleSchema hdoc, rfl, nofun⟩
  | struct fields =>
    obtain ⟨doc, hdoc, rfl⟩ := map_eq_ok.mp hpayload
    obtain ⟨htyped, hkeys⟩ := context.listed_structSchema hdoc
    exact .inr ⟨doc, rfl, htyped, rfl, fun _ => hkeys⟩

/-- Which tags can stand beside an encoded variant. -/
theorem succeeds_encode_encodedVariant {rule : Option RenameRule} {place : Location}
    {variant : Variant} {encoded : EncodedVariant}
    (hencoded : context.encodedVariant child rule place variant = .ok encoded)
    (tagging : Tagging) :
    Succeeds (tagging.encode encoded) ↔ ∀ tag, tagging = .internal tag →
      context.isMergeable variant.payload ∧ tag ∉ variant.payload.keys listed := by
  obtain ⟨key, schema?, mergeable⟩ := encoded
  obtain ⟨rfl, hpayload⟩ | ⟨doc, rfl, htyped, rfl, hkeys⟩ := context.encodedVariant_cases h hencoded
  · rw [hpayload]
    exact ⟨fun _ _ _ => ⟨rfl, List.not_mem_nil⟩, fun _ => tagging.succeeds_encode_unit _ _⟩
  · rw [tagging.succeeds_encode_iff _ _ htyped]
    refine forall_congr' fun tag => imp_congr_right fun _ => and_congr_right fun hmergeable => ?_
    rw [hkeys hmergeable]

theorem succeeds_encodedVariants {rule : Option RenameRule} {place : Location}
    {used : List String} {variants : List Variant} :
    Succeeds (context.encodedVariants child rule place used variants) ↔
      FreshKeys used (variantKeys rule variants) ∧
        ∀ variant ∈ variants, variant.Fits ∧ EachPart D variant.payload.parts := by
  simp only [Succeeds, context.encodedVariants_eq_ok, exists_and_left, exists_forall₂_iff]
  refine and_congr_right fun _ => forall₂_congr fun variant _ => ?_
  exact context.succeeds_encodedVariant h

/-- Which variants can be encoded. -/
theorem succeeds_encode_encodedVariants {rule : Option RenameRule} {place : Location}
    {variants : List Variant} {encoded : List EncodedVariant}
    (hencoded : List.Forall₂ (fun v e => context.encodedVariant child rule place v = .ok e) variants
      encoded) (tagging : Tagging) :
    (encoded = [] ↔ variants = []) ∧
      ((∀ v ∈ encoded, Succeeds (tagging.encode v)) ↔
        ∀ variant ∈ variants, ∀ tag, tagging = .internal tag →
          context.isMergeable variant.payload ∧ tag ∉ variant.payload.keys listed) := by
  induction hencoded with
  | nil => simp
  | cons hfirst _ ih =>
    refine ⟨by simp, ?_⟩
    rw [List.forall_mem_cons, List.forall_mem_cons,
      context.succeeds_encode_encodedVariant h hfirst tagging, ih.2]

theorem succeeds_enumSchema {type : Enum} {place : Location} :
    Succeeds (context.enumSchema child type place) ↔
      type.Fits context ∧ type.KeepsApart listed ∧
        ∀ variant ∈ type.variants, EachPart D variant.payload.parts := by
  rw [enumSchema, succeeds_bind_iff fun encoded hencoded => by
      obtain ⟨hempty, hencode⟩ := context.succeeds_encode_encodedVariants h
        (context.encodedVariants_eq_ok.mp hencoded).2 type.tagging
      rw [succeeds_located, Tagging.succeeds_encodeUnion, ne_eq, hempty, hencode],
    context.succeeds_encodedVariants h, freshKeys_nil]
  constructor
  · rintro ⟨⟨hkeys, hvariants⟩, htagging, hinhabited, hencode⟩
    refine ⟨⟨hkeys, fun v hv => (hvariants v hv).1, htagging, hinhabited,
      fun tag htag v hv => (hencode v hv tag htag).1⟩, ?_, fun v hv => (hvariants v hv).2⟩
    exact fun tag htag v hv => (hencode v hv tag htag).2
  · rintro ⟨hfits, hapart, hparts⟩
    refine ⟨⟨hfits.keys, fun v hv => ⟨hfits.variants v hv, hparts v hv⟩⟩,
      hfits.tagging, hfits.inhabited, fun v hv tag htag => ?_⟩
    exact ⟨hfits.mergeable tag htag v hv, hapart tag htag v hv⟩

theorem succeeds_declarationSchema {index : Nat} {type : Declaration} {place : Location}
    (hfound : context.graph.declaration? index = some type) :
    Succeeds (context.declarationSchema child type place) ↔
      context.Fits (.declared index) ∧ context.graph.KeepsApart listed (.declared index) ∧
        EachPart D (context.graph.parts (.declared index)) := by
  have hparts : context.graph.parts (.declared index) = type.parts := by
    simp [Graph.parts, hfound]
  simp only [Fits, Graph.KeepsApart, hfound, hparts, Option.some.injEq]
  cases type with
  | struct type =>
    rw [declarationSchema, context.succeeds_structSchema h, eachPart_struct]
    refine and_congr_right fun _ => ⟨fun hrest => ⟨fun _ heq => ?_, hrest⟩, fun hrest => hrest.2⟩
    cases heq
  | tuple type =>
    rw [declarationSchema, succeeds_tupleSchema h, Declaration.parts, eachPart_tuple]
    refine ⟨fun hrest => ⟨trivial, fun _ heq => ?_, hrest⟩, fun hrest => hrest.2.2⟩
    cases heq
  | enum type =>
    rw [declarationSchema, context.succeeds_enumSchema h, eachPart_enum]
    simp

omit h in
/-- A shape with one part that is in order by itself only needs a schema for the part. -/
theorem eachPart_only {steps : List Step} {inner : Shape} :
    D inner ↔ True ∧ True ∧ EachPart D [(steps, inner)] := by
  rw [true_and, true_and, eachPart_singleton]

/-- One level succeeds if the shape is in order, its tags meet no properties and its parts have
schemas. -/
theorem succeeds_level {shape : Shape} {place : Location} :
    Succeeds (context.level child shape place) ↔
      context.Fits shape ∧ context.graph.KeepsApart listed shape ∧
        EachPart D (context.graph.parts shape) := by
  cases shape with
  | optional label inner =>
    rw [level, succeeds_bind_iff (P := True) fun doc hdoc => ?_, and_true, h.succeeds]
    · exact eachPart_only
    · obtain ⟨widened, hwidened, _⟩ := Schema.widenNullable_of_isTyped (h.typed hdoc)
      exact ⟨fun _ => trivial, fun _ => succeeds_located.mpr ⟨widened, hwidened⟩⟩
  | array label element | set label element | fixedArray label element =>
    rw [level, succeeds_map, h.succeeds]
    exact eachPart_only
  | map label key value =>
    rw [level, succeeds_bind_iff (P := key.isText) fun doc hdoc => ?_, h.succeeds]
    · exact ⟨fun hrest => ⟨hrest.2, trivial, eachPart_singleton.mpr hrest.1⟩,
        fun hrest => ⟨eachPart_singleton.mp hrest.2.2, hrest.1⟩⟩
    · rw [succeeds_located, Schema.map]
      cases key.isText with
      | true => exact ⟨fun _ => rfl, fun _ => succeeds_ok _⟩
      | false =>
        exact ⟨fun hfail => absurd hfail (not_succeeds_error _),
          fun htext => absurd htext Bool.false_ne_true⟩
  | newtype label name inner =>
    rw [level, h.succeeds]
    exact eachPart_only
  | generic label name =>
    exact ⟨fun hfail => absurd hfail (not_succeeds_error _), fun hrest => hrest.1.elim⟩
  | raw value =>
    exact ⟨fun hfail => absurd hfail (not_succeeds_error _), fun hrest => hrest.1.elim⟩
  | declared index =>
    cases hfound : context.graph.declaration? index with
    | none =>
      simp only [level, Fits, hfound]
      exact ⟨fun hfail => absurd hfail (not_succeeds_error _), fun hrest => hrest.1.elim⟩
    | some type =>
      simp only [level, hfound]
      exact context.succeeds_declarationSchema h hfound
  | _ => exact ⟨fun _ => ⟨trivial, trivial, eachPart_nil⟩, fun _ => succeeds_ok _⟩

end Context
end ShapeSchema
