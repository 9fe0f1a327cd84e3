import Mathlib.Computability.Primrec.List
import ShapeSchema.Proofs.Acceptance.Fragment

/-!
Cutting a recursive type never makes its schema stricter. The more nodes are taken as being expanded
already, the more values the schema accepts; and whichever nodes are expanded again on the way, the
schema with placeholders accepts what the unrolled one accepts.
-/

namespace ShapeSchema

namespace Schema

theorem isTyped_primitive (kind : PrimitiveKind) : IsTyped (primitive kind) := by
  cases kind <;> exact .of_members (by simp [primitive, Document.keys])
    (by simp [primitive, hasForm, count])

theorem isTyped_anyObject : IsTyped anyObject :=
  .of_members (by simp [anyObject, Document.keys]) (by simp [anyObject, hasForm])

theorem outdoes_primitive (kind : PrimitiveKind) : Outdoes (primitive kind) (primitive kind) :=
  .refl (isTyped_primitive kind) (by cases kind <;> simp [boundKeys, primitive, Document.keys])

theorem outdoes_anyObject : Outdoes anyObject anyObject :=
  .refl isTyped_anyObject (by simp [boundKeys, anyObject, Document.keys])

theorem outdoes_objectId : Outdoes objectId objectId :=
  .refl (.of_members (by simp [objectId, Document.keys]) (by simp [objectId, hasForm]))
    (by simp [boundKeys, objectId, Document.keys])

theorem outdoes_unit : Outdoes unit unit :=
  .refl (.of_members (by simp [unit, Document.keys]) (by simp [unit, hasForm, count]))
    (by simp [boundKeys, unit, Document.keys])

theorem Outdoes.widened {d e : Document} (h : Outdoes d e) :
    Survives Outdoes (widenNullable d) (widenNullable e) := by
  obtain ⟨d', hokd, hd⟩ := widenNullable_of_isTyped h.tightens.left
  obtain ⟨e', hoke, he⟩ := widenNullable_of_isTyped h.tightens.right
  rw [hokd, hoke]
  refine .pure ⟨h.tightens.widened hd he, fun key hkey => ?_⟩
  rw [hd.other fun hkind => ?_]
  · exact h.unbounded key hkey
  · have hmem := mem_of_kindKey? hkind
    simp only [boundKeys, List.mem_cons, List.not_mem_nil, or_false] at hkey hmem
    rcases hkey with rfl | rfl | rfl <;> simp at hmem

end Schema

open Schema

def Coupling.surviving : Coupling (fun _ => True) (Except SchemaError) (Except SchemaError) where
  Rel := Survives
  At _ _ := True
  pure := .pure
  bind := .bind
  fail _ _ _ := .error
  push _ _ := trivial

theorem Survives.located {α β : Type} {R : α → β → Prop} {x : Except Defect α}
    {y : Except Defect β} (h : Survives R x y) (p q : Location) :
    Survives R (Context.located p x : Except SchemaError α)
      (Context.located q y : Except SchemaError β) := by
  cases x with
  | error defect => exact .error
  | ok a =>
    obtain ⟨b, rfl, hab⟩ := h a rfl
    exact .pure hab

namespace Context

theorem survives_applyBounds (context : Context) (shape : Shape) (c : Constraints) {d e : Document}
    (h : Outdoes d e) :
    Survives Tightens (context.applyBounds shape c d) (context.applyBounds shape c e) := by
  unfold applyBounds
  split
  · split
    · exact .pure (h.tightens.bounded h.unbounded c)
    · exact .error
  · exact .error

/-- The rules of the derivation keep what is said at least as much. -/
theorem respects_outdoes (context : Context) :
    Coupling.surviving.Respects context context Eq Outdoes Tightens FurtherWithin where
  ordinary _ := trivial
  optional h := by rw [h]
  mergeable h := by rw [h]
  inner h := h.tightens
  bounded {s t p q d e c} _ hshape hdoc _ := by
    rw [hshape]
    exact (context.survives_applyBounds t c hdoc).located p q
  widened {p q d e} hdoc _ := hdoc.widened.located p q
  mapped {p q d e} key hdoc _ := (survives_map key hdoc.within).located p q
  primitive := outdoes_primitive
  anyObject := outdoes_anyObject
  objectId := outdoes_objectId
  unit := outdoes_unit
  array h := outdoes_array h.within
  set h := outdoes_set h.within
  fixedArray length h := outdoes_fixedArray length h.within
  tuple h := outdoes_tuple (h.imp fun _ _ h => h.within)
  unspecified _ _ h := h
  allowed _ _ _ h := h
  values h reading value hfurther := h.within reading value hfurther
  object h _ hfurther := outdoes_objectSchema
    (h.imp fun _ _ h => ⟨h.key, h.required, h.schema.within⟩) hfurther
  union {vs ws p q} tagging h _ := (survives_encodeUnion tagging h).located p q

/-- One level succeeds where another one does if the schemas of the parts do. -/
theorem survives_level (context : Context) {shape : Shape}
    {left right : Shape → Location → Except SchemaError Document}
    (hparts : ∀ steps part, (steps, part) ∈ context.graph.parts shape → ∀ p q,
      Survives Outdoes (left part p) (right part q)) (p q : Location) :
    Survives Outdoes (context.level left shape p) (context.level right shape q) :=
  context.respects_outdoes.level_of_parts rfl
    (fun steps part hpart p q _ => hparts steps part hpart p q) trivial

/-- Schemas of a shape in which nodes that are being expanded may be expanded again, any number of
times, before they are cut. -/
inductive Unrolling (context : Context) : List Shape → Shape → Document → Prop
  | pass {active : List Shape} {shape : Shape} {place : Location} {doc : Document}
      {child : Shape → Location → Except SchemaError Document}
      (hnominal : shape.isNominal = false)
      (hparts : ∀ steps part there inner, (steps, part) ∈ context.graph.parts shape →
        child part there = .ok inner → Unrolling context active part inner)
      (hlevel : context.level child shape place = .ok doc) : Unrolling context active shape doc
  | cut {active : List Shape} {shape : Shape} (hnominal : shape.isNominal)
      (hmem : shape ∈ active) : Unrolling context active shape (context.cutSchema shape)
  | expand {active : List Shape} {shape : Shape} {place : Location} {doc : Document}
      {child : Shape → Location → Except SchemaError Document} (hnominal : shape.isNominal)
      (hparts : ∀ steps part there inner, (steps, part) ∈ context.graph.parts shape →
        child part there = .ok inner → Unrolling context (shape :: active) part inner)
      (hlevel : context.level child shape place = .ok doc) : Unrolling context active shape doc

/-- What the plain derivation gives is an unrolling. -/
theorem unrolling_of_plain (context : Context) (active : List Shape) (shape : Shape) :
    ∀ place doc, context.walk Policy.plain active shape place = .ok doc →
      context.Unrolling active shape doc := by
  induction active, shape using context.graph.expansion_induction with
  | pass active shape hnominal ih =>
    intro place doc hwalk
    rw [context.walk_of_not_nominal Policy.plain active place hnominal] at hwalk
    exact .pass hnominal (fun steps part there inner hmem => ih steps part hmem there inner) hwalk
  | cut active shape hnominal hmem =>
    intro place doc hwalk
    rw [context.plain_of_mem place hnominal hmem] at hwalk
    cases hwalk
    exact .cut hnominal hmem
  | expand active shape hnominal hmem ih =>
    intro place doc hwalk
    rw [context.plain_of_not_mem place hnominal hmem] at hwalk
    have hparts := fun steps part there inner hpart => ih steps part hpart there inner
    exact .expand hnominal hparts hwalk

theorem cutSchema_cases (context : Context) (shape : Shape) :
    context.cutSchema shape = [] ∨
      ∃ index, shape = .declared index ∧
        ((∃ type, context.graph.declaration? index = some (.struct type) ∧
          context.cutSchema shape = [("type", .str "object")]) ∨
        ∃ type, context.graph.declaration? index = some (.tuple type) ∧
          context.cutSchema shape = [("type", .str "array")]) := by
  cases shape with
  | declared index =>
    cases hfound : context.graph.declaration? index with
    | none => exact .inl (by simp [cutSchema, placeholder, hfound])
    | some type =>
      cases type with
      | struct type =>
        refine .inr ⟨index, rfl, .inl ⟨type, hfound, ?_⟩⟩
        simp [cutSchema, placeholder, hfound, anyObject]
      | tuple type =>
        refine .inr ⟨index, rfl, .inr ⟨type, hfound, ?_⟩⟩
        simp [cutSchema, placeholder, hfound, anyArray]
      | enum type => exact .inl (by simp [cutSchema, placeholder, hfound])
  | _ => exact .inl rfl

theorem outdoes_cutSchema_self (context : Context) (shape : Shape) :
    Outdoes (context.cutSchema shape) (context.cutSchema shape) := by
  rcases context.cutSchema_cases shape with heq | ⟨_, _, ⟨_, _, heq⟩ | ⟨_, _, heq⟩⟩ <;> rw [heq] <;>
    exact .refl (.of_members (by simp [Document.keys]) (by simp [hasForm]))
      (by simp [boundKeys, Document.keys])

theorem type_of_structSchema (context : Context)
    {child : Shape → Location → Except SchemaError Document} {fields : List Field}
    {rule : Option RenameRule} {extra : Extra} {place : Location} {doc : Document}
    (hdoc : context.structSchema child fields rule extra place = .ok doc) :
    doc.get? "type" = some (.str "object") := by
  obtain ⟨listed, _, hdoc⟩ := bind_eq_ok.mp hdoc
  obtain ⟨further, _, hdoc⟩ := bind_eq_ok.mp hdoc
  cases hdoc
  simp [objectSchema, Document.get?_cons]

theorem type_of_tupleSchema {child : Shape → Location → Except SchemaError Document}
    {shapes : List Shape} {place : Location} {doc : Document}
    (hdoc : tupleSchema child shapes place = .ok doc) :
    doc.get? "type" = some (.str "array") := by
  obtain ⟨items, _, hdoc⟩ := bind_eq_ok.mp hdoc
  cases hdoc
  simp [Schema.tuple, Document.get?_cons]

/-- The schema of a node says at least as much as its placeholder. -/
theorem outdoes_cutSchema (context : Context)
    {child : Shape → Location → Except SchemaError Document} {shape : Shape} {place : Location}
    {doc : Document} (hlevel : context.level child shape place = .ok doc) (hdoc : Outdoes doc doc) :
    Outdoes doc (context.cutSchema shape) := by
  refine ⟨?_, hdoc.unbounded⟩
  rcases context.cutSchema_cases shape with
    heq | ⟨index, rfl, ⟨type, hfound, heq⟩ | ⟨type, hfound, heq⟩⟩ <;> rw [heq]
  · exact .free hdoc.tightens.left
  · simp only [level, hfound] at hlevel
    exact .of_type hdoc.tightens.left (context.type_of_structSchema hlevel)
  · simp only [level, hfound] at hlevel
    exact .of_type hdoc.tightens.left (type_of_tupleSchema hlevel)

/-- Every unrolling says at least as much as the plain derivation in which more nodes are taken as
being expanded. -/
theorem Unrolling.outdoes {context : Context} {active : List Shape} {shape : Shape}
    {doc : Document} (h : context.Unrolling active shape doc) :
    ∀ more, active ⊆ more → ∀ place,
      ∃ e, context.walk Policy.plain more shape place = .ok e ∧ Outdoes doc e := by
  induction h with
  | @pass active shape there doc child hnominal _ hlevel ih =>
    intro more hsub place
    rw [context.walk_of_not_nominal Policy.plain more place hnominal]
    apply context.survives_level _ there place doc hlevel
    intro steps part hmem p q inner hinner
    exact ih steps part p inner hmem hinner more hsub q
  | @cut active shape hnominal hmem =>
    intro more hsub place
    exact ⟨_, context.plain_of_mem place hnominal (hsub hmem), context.outdoes_cutSchema_self shape⟩
  | @expand active shape there doc child hnominal _ hlevel ih =>
    intro more hsub place
    obtain ⟨e, hwalk, houtdoes⟩ := context.survives_level (fun steps part hmem p q inner hinner =>
      ih steps part p inner hmem hinner (shape :: more) (List.cons_subset_cons shape hsub) q)
      there place doc hlevel
    by_cases hmem : shape ∈ more
    · refine ⟨_, context.plain_of_mem place hnominal hmem, ?_⟩
      exact context.outdoes_cutSchema hlevel
        ⟨.refl houtdoes.tightens.left, houtdoes.unbounded⟩
    · rw [context.plain_of_not_mem place hnominal hmem]
      exact ⟨e, hwalk, houtdoes⟩

/-- If more nodes are taken as being expanded, the derivation of a shape succeeds where it did, with
a schema that accepts all values of the earlier one, and of all unrollings. -/
theorem cut_accepts (context : Context) {active more : List Shape} (hsub : active ⊆ more)
    (shape : Shape) (place : Location) :
    (∀ doc, context.walk Policy.plain active shape place = .ok doc →
      ∃ cut, context.walk Policy.plain more shape place = .ok cut ∧ Within doc cut) ∧
    ∀ doc, context.Unrolling active shape doc →
      ∃ cut, context.walk Policy.plain more shape place = .ok cut ∧ Within doc cut := by
  have hunrolling : ∀ doc, context.Unrolling active shape doc →
      ∃ cut, context.walk Policy.plain more shape place = .ok cut ∧ Within doc cut := by
    intro doc hdoc
    obtain ⟨cut, hwalk, houtdoes⟩ := hdoc.outdoes more hsub place
    exact ⟨cut, hwalk, houtdoes.within⟩
  refine ⟨fun doc hwalk => hunrolling doc ?_, hunrolling⟩
  exact context.unrolling_of_plain active shape place doc hwalk

def chainGraph : Graph where
  declarations := #[.struct ⟨"Chain", [⟨"value", .primitive .u32, .none, by decide⟩,
    ⟨"rest", .optional 0 (.declared 0), .none, by decide⟩], none, .unspecified⟩]
  labels := 1

theorem cut_accepts_chain :
    ∃ doc cut, walk ⟨chainGraph, true⟩ Policy.plain [] (.declared 0) (.start "Chain") = .ok doc ∧
      walk ⟨chainGraph, true⟩ Policy.plain [.declared 0] (.declared 0) (.start "Chain") = .ok cut ∧
        Within doc cut := by
  have hwalk : walk ⟨chainGraph, true⟩ Policy.plain [] (.declared 0) (.start "Chain") =
      .ok [("type", .str "object"),
        ("properties", .obj
          [("value", .obj [("bsonType", .str "int"), ("minimum", count 0)]),
            ("rest", .obj [("type", .arr [.str "object", .str "null"])])]),
        ("required", .arr [.str "value"]), ("additionalProperties", .bool false)] := by
    cbv
  obtain ⟨cut, hcut, hwithin⟩ := (cut_accepts ⟨chainGraph, true⟩ (List.nil_subset [.declared 0])
    (.declared 0) (.start "Chain")).1 _ hwalk
  exact ⟨_, cut, hwalk, hcut, hwithin⟩

end Context
end ShapeSchema
