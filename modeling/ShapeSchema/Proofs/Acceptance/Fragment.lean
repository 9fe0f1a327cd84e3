import ShapeSchema.Proofs.Acceptance.Bounds
import ShapeSchema.Proofs.Acceptance.Encoding
import ShapeSchema.Proofs.Acceptance.Widening
import ShapeSchema.Proofs.Derivation.Coupling

/-!
Schemas put together from other ones. Each rule that builds a schema keeps what is said at least as
much, and a rule that can fail does not fail on what says less.
-/

namespace ShapeSchema

/-- Whether the second outcome is a success wherever the first one is, with a related result. -/
def Survives {ε δ α β : Type} (R : α → β → Prop) (x : Except ε α) (y : Except δ β) : Prop :=
  ∀ a, x = .ok a → ∃ b, y = .ok b ∧ R a b

namespace Survives

variable {ε δ α β α' β' : Type} {R : α → β → Prop} {Q : α' → β' → Prop}

theorem pure {a : α} {b : β} (h : R a b) :
    Survives R (Pure.pure a : Except ε α) (Pure.pure b : Except δ β) := by
  intro c hc
  cases hc
  exact ⟨b, rfl, h⟩

theorem refl {R : α → α → Prop} (h : ∀ a, R a a) (x : Except ε α) : Survives R x x :=
  fun a ha => ⟨a, ha, h a⟩

theorem error {e : ε} {y : Except δ β} : Survives R (.error e) y := by
  intro a h
  cases h

theorem bind {x : Except ε α} {y : Except δ β} {f : α → Except ε α'} {g : β → Except δ β'}
    (h : Survives R x y) (hnext : ∀ a b, R a b → Survives Q (f a) (g b)) :
    Survives Q (x >>= f) (y >>= g) := by
  intro c hc
  cases x with
  | error e => cases hc
  | ok a =>
    obtain ⟨b, rfl, hab⟩ := h a rfl
    exact hnext a b hab c hc

theorem mapM {x : List α'} {y : List β'} {f : α' → Except ε α} {g : β' → Except δ β}
    (h : List.Forall₂ (fun a b => Survives R (f a) (g b)) x y) :
    Survives (List.Forall₂ R) (x.mapM f) (y.mapM g) := by
  induction h with
  | nil => exact .pure .nil
  | cons hhead _ ih =>
    rw [List.mapM_cons, List.mapM_cons]
    exact hhead.bind fun _ _ hfirst => ih.bind fun _ _ hrest => .pure (.cons hfirst hrest)

end Survives

namespace Schema

theorem HeldWithin.refl (d : Document) : HeldWithin (.obj d) (.obj d) :=
  .intro (Within.refl d)

theorem Tightens.held {d e : Document} (h : Tightens d e) : HeldWithin (.obj d) (.obj e) :=
  .intro h.within

/-- Schemas without bounds are compared member by member. -/
theorem Outdoes.of_members {d e : Document} (hd : IsTyped d) (he : IsTyped e)
    (hkeys : ∀ key ∈ boundKeys, key ∉ d.keys)
    (hlisted : ∀ {key}, (Tagging.propertiesOf e).has key → (Tagging.propertiesOf d).has key)
    (h : List.Forall₂ (MemberTightens d e) d e) : Outdoes d e :=
  ⟨.of_members hd he hlisted h, .of_keys hkeys⟩

/-- The same for schemas that list no properties. -/
theorem Outdoes.of_unlisted {d e : Document} (hd : IsTyped d) (he : IsTyped e)
    (hkeys : ∀ key ∈ "properties" :: boundKeys, key ∉ d.keys)
    (h : List.Forall₂ (MemberTightens d e) d e) : Outdoes d e := by
  obtain ⟨hproperties, hbounds⟩ := List.forall_mem_cons.mp hkeys
  refine .of_members hd he hbounds (fun {key} hhas => ?_) h
  rw [keys_eq_of_forall₂ And.left h] at hproperties
  rw [propertiesOf_of_none (Document.get?_eq_none hproperties)] at hhas
  simp [Document.has] at hhas

section Members

variable {d e : Document}

theorem MemberTightens.items {inner other : Document} (h : Within inner other) :
    MemberTightens d e ("items", .obj inner) ("items", .obj other) := by
  refine ⟨rfl, fun reading value hpasses => ?_⟩
  refine acceptsKeyword_items.mpr fun items hvalue item hmem => ?_
  exact h reading item (acceptsKeyword_items.mp hpasses items hvalue item hmem)

theorem MemberTightens.positions {schemas others : List Json}
    (h : List.Forall₂ HeldWithin schemas others) :
    MemberTightens d e ("items", .arr schemas) ("items", .arr others) := by
  refine ⟨rfl, fun reading value hpasses => acceptsKeyword_positions.mpr fun items hvalue => ?_⟩
  exact acceptsPositions_mono h (acceptsKeyword_positions.mp hpasses items hvalue)

theorem MemberTightens.alternatives {schemas others : List Json}
    (h : List.Forall₂ HeldWithin schemas others) :
    MemberTightens d e ("anyOf", .arr schemas) ("anyOf", .arr others) := by
  refine ⟨rfl, fun reading value hpasses => ?_⟩
  rw [acceptsKeyword_anyOf] at hpasses ⊢
  exact acceptsSome_mono h hpasses

theorem MemberTightens.properties {properties others : Document}
    (h : List.Forall₂ PropertyWithin properties others) :
    MemberTightens d e ("properties", .obj properties) ("properties", .obj others) := by
  refine ⟨rfl, fun reading value hpasses =>
    acceptsKeyword_properties.mpr fun members hvalue member hmem => ?_⟩
  exact acceptsProperty_mono h (acceptsKeyword_properties.mp hpasses members hvalue member hmem)

def FurtherWithin (x y : Json) : Prop :=
  ∀ reading value, acceptsFurther reading x value → acceptsFurther reading y value

theorem MemberTightens.additional {x y : Json} (h : FurtherWithin x y)
    (hlisted : ∀ {key}, (Tagging.propertiesOf d).has key → (Tagging.propertiesOf e).has key) :
    MemberTightens d e ("additionalProperties", x) ("additionalProperties", y) := by
  refine ⟨rfl, fun reading value hpasses =>
    acceptsKeyword_additional.mpr fun members hvalue member hmem => ?_⟩
  exact (acceptsKeyword_additional.mp hpasses members hvalue member hmem).imp hlisted
    (h reading member.2)

end Members

section Containers

variable {d e : Document}

theorem outdoes_array (h : Within d e) : Outdoes (array d) (array e) := by
  have htyped : ∀ d, IsTyped (array d) := fun d =>
    .of_members (by simp [array, Document.keys]) (by simp [array, hasForm])
  refine .of_unlisted (htyped d) (htyped e) (by simp [boundKeys, array, Document.keys]) ?_
  exact .cons (.same (by simp [beside])) (.cons (.items h) .nil)

theorem outdoes_set (h : Within d e) : Outdoes (set d) (set e) := by
  have htyped : ∀ d, IsTyped (set d) := fun d =>
    .of_members (by simp [set, Document.keys]) (by simp [set, hasForm])
  refine .of_unlisted (htyped d) (htyped e) (by simp [boundKeys, set, Document.keys]) ?_
  exact .cons (.same (by simp [beside])) (.cons (.same (by simp [beside])) (.cons (.items h) .nil))

theorem outdoes_fixedArray (length : Nat) (h : Within d e) :
    Outdoes (fixedArray d length) (fixedArray e length) := by
  have htyped : ∀ d, IsTyped (fixedArray d length) := fun d =>
    .of_members (by simp [fixedArray, Document.keys]) (by simp [fixedArray, hasForm, count])
  refine .of_unlisted (htyped d) (htyped e) (by simp [boundKeys, fixedArray, Document.keys]) ?_
  exact .cons (.same (by simp [beside])) (.cons (.same (by simp [beside]))
    (.cons (.same (by simp [beside])) (.cons (.items h) .nil)))

theorem outdoes_tuple {ds es : List Document} (h : List.Forall₂ Within ds es) :
    Outdoes (tuple ds) (tuple es) := by
  have htyped : ∀ ds, IsTyped (tuple ds) := fun ds =>
    .of_members (by simp [tuple, Document.keys]) (by simp [tuple, hasForm, count])
  have hcount : ∀ ds, positionCount (tuple ds) = ds.length := fun ds => by
    simp [positionCount, tuple, Document.get?_cons]
  refine .of_unlisted (htyped ds) (htyped es) (by simp [boundKeys, tuple, Document.keys]) ?_
  have hheld : List.Forall₂ HeldWithin (ds.map .obj) (es.map .obj) :=
    List.rel_map (fun _ _ => .intro) h
  refine .cons (.same (by simp [beside])) (.cons (.positions hheld) (.cons ⟨rfl, ?_⟩ ?_))
  · intro reading value hpasses
    cases value <;> simp_all [acceptsKeyword, acceptsPlain, h.length_eq]
  · rw [h.length_eq]
    exact .cons (.same (by simp [beside])) (.cons (.same (by simp [beside])) .nil)

/-- A map needs keys that are text, whatever its values. -/
theorem survives_map (key : PrimitiveKind) (h : Within d e) :
    Survives Outdoes (map key (.obj d)) (map key (.obj e)) := by
  unfold map
  split
  · refine .pure ?_
    have htyped : ∀ values, IsTyped [("type", .str "object"), ("additionalProperties", values)] :=
      fun values => .of_members (by simp [Document.keys]) (by cases values <;> simp [hasForm])
    refine .of_unlisted (htyped _) (htyped _) (by simp [boundKeys, Document.keys]) ?_
    refine .cons (.same (by simp [beside])) (.cons (.additional h ?_) .nil)
    intro key hhas
    rw [propertiesOf_of_none (by simp [Document.get?_cons])] at hhas
    simp [Document.has] at hhas
  · exact .error

theorem closedObject_mono {ps qs : Document} (h : List.Forall₂ PropertyWithin ps qs) :
    Within (Tagging.closedObject ps) (Tagging.closedObject qs) := by
  have htyped : ∀ ps, IsTyped (Tagging.closedObject ps) := fun ps =>
    .of_members (by simp [Tagging.closedObject, Document.keys])
      (by simp [Tagging.closedObject, hasForm])
  have hlisted : ∀ ps, Tagging.propertiesOf (Tagging.closedObject ps) = ps := fun ps =>
    propertiesOf_of_get? (by simp [Tagging.closedObject, Document.get?_cons])
  have hkeys := keys_eq_of_forall₂ And.left h
  have hsame : ∀ {key}, ps.has key ↔ qs.has key := by
    simp [Document.has_eq_mem, hkeys]
  refine (Tightens.of_members (htyped ps) (htyped qs) (fun {key} hhas => ?_) ?_).within
  · rw [hlisted] at hhas ⊢
    exact hsame.mpr hhas
  · refine .cons (.same (by simp [beside])) (.cons (.properties h) (.cons ?_
      (.cons (.additional (fun _ _ h => h) fun {key} hhas => ?_) .nil)))
    · rw [hkeys]
      exact .same (by simp [beside])
    · rw [hlisted] at hhas ⊢
      exact hsame.mp hhas

section Objects

variable {ps qs : List Context.Property} {R : Document → Document → Prop}

/-- The keywords of the schema of an object. -/
theorem keys_objectSchema (ps : List Context.Property) (x : Json) :
    (Context.objectSchema ps x).keys.Sublist
      ["type", "properties", "required", "additionalProperties"] := by
  unfold Context.objectSchema
  dsimp only
  split
  · exact .cons_cons _ (.cons_cons _ (.cons _ (.refl _)))
  · exact .refl _

theorem isTyped_objectSchema (ps : List Context.Property) (x : Json) :
    IsTyped (Context.objectSchema ps x) := by
  refine .of_members ((keys_objectSchema ps x).nodup (by decide)) ?_
  unfold Context.objectSchema
  dsimp only
  split <;> cases x <;> simp [hasForm]

theorem boundKeys_objectSchema (ps : List Context.Property) (x : Json) :
    ∀ key ∈ boundKeys, key ∉ (Context.objectSchema ps x).keys := by
  have hfree : ∀ key ∈ boundKeys,
      key ∉ ["type", "properties", "required", "additionalProperties"] := by decide
  exact fun key hbound hkey => hfree key hbound ((keys_objectSchema ps x).subset hkey)

theorem propertiesOf_objectSchema (ps : List Context.Property) (x : Json) :
    Tagging.propertiesOf (Context.objectSchema ps x) = ps.map fun p => (p.key, .obj p.schema) :=
  propertiesOf_of_get? (by simp [Context.objectSchema, Document.get?_cons])

theorem required_eq (h : List.Forall₂ (Context.Property.Corresponds R) ps qs) :
    (ps.filter (·.required)).map (Json.str ·.key) =
      (qs.filter (·.required)).map (Json.str ·.key) := by
  induction h with
  | nil => rfl
  | @cons p q _ _ hhead _ ih =>
    simp only [List.filter_cons, hhead.required]
    split
    · simp only [List.map_cons, hhead.key, ih]
    · exact ih

/-- The schema of an object says at least as much if those of its properties accept no more. -/
theorem outdoes_objectSchema {x y : Json}
    (h : List.Forall₂ (Context.Property.Corresponds Within) ps qs) (hfurther : FurtherWithin x y) :
    Outdoes (Context.objectSchema ps x) (Context.objectSchema qs y) := by
  have hproperties : List.Forall₂ PropertyWithin
      (ps.map fun p => (p.key, Json.obj p.schema))
      (qs.map fun p => (p.key, Json.obj p.schema)) := by
    exact List.rel_map (fun _ _ hpq => ⟨hpq.key, .intro hpq.schema⟩) h
  have hlisted : ∀ {key}, (Tagging.propertiesOf (Context.objectSchema ps x)).has key ↔
      (Tagging.propertiesOf (Context.objectSchema qs y)).has key := by
    intro key
    rw [propertiesOf_objectSchema, propertiesOf_objectSchema, Document.has_eq_mem,
      Document.has_eq_mem, keys_eq_of_forall₂ And.left hproperties]
  refine .of_members (isTyped_objectSchema ps x) (isTyped_objectSchema qs y)
    (boundKeys_objectSchema ps x) hlisted.mpr ?_
  refine List.rel_append (.cons (.same (by simp [beside])) (.cons (.properties hproperties) ?_))
    (.cons (.additional hfurther hlisted.mp) .nil)
  rw [required_eq h]
  split
  · exact .nil
  · exact .cons (.same (by simp [beside])) .nil

end Objects

end Containers

section Encodings

open Tagging

variable {v w : EncodedVariant}

theorem held_payload (h : EncodedVariant.Corresponds Tightens v w) :
    HeldWithin v.payload w.payload := by
  obtain ⟨key, schema, mergeable⟩ := v
  obtain ⟨key', schema', mergeable'⟩ := w
  obtain ⟨rfl, rfl, hschema⟩ := h
  cases hschema with
  | none => exact .refl _
  | some hdoc =>
    obtain ⟨d, e, rfl, rfl, htightens⟩ := hdoc
    exact htightens.held

theorem closedObject_held {ps qs : Document} (h : List.Forall₂ PropertyWithin ps qs) :
    HeldWithin (.obj (closedObject ps)) (.obj (closedObject qs)) :=
  .intro (closedObject_mono h)

/-- A variant can be encoded if one can whose payload says more; the tag is no property of the
payload then either. -/
theorem survives_encode (tagging : Tagging) (h : EncodedVariant.Corresponds Tightens v w) :
    Survives HeldWithin (tagging.encode v) (tagging.encode w) := by
  have hpayload := held_payload h
  cases tagging with
  | external =>
    rw [encode, encode, h.key]
    exact .pure (closedObject_held (.cons ⟨rfl, hpayload⟩ .nil))
  | adjacent tag content =>
    rw [encode, encode, h.key]
    exact .pure (closedObject_held (.cons ⟨rfl, .refl _⟩ (.cons ⟨rfl, hpayload⟩ .nil)))
  | untagged => exact .pure hpayload
  | internal tag =>
    obtain ⟨key, schema, mergeable⟩ := v
    obtain ⟨key', schema', mergeable'⟩ := w
    obtain ⟨rfl, rfl, hschema⟩ := h
    cases hschema with
    | none => exact .pure (.refl _)
    | some hdoc =>
      obtain ⟨d, e, rfl, rfl, htightens⟩ := hdoc
      simp only [encode]
      split
      · rw [mergeTag_of_isTyped htightens.left, mergeTag_of_isTyped htightens.right]
        cases htag : (propertiesOf d).has tag with
        | true => exact .error
        | false =>
          have hfree : (propertiesOf e).has tag = false := by
            rw [Bool.eq_false_iff] at htag ⊢
            exact fun hhas => htag (htightens.properties hhas)
          rw [hfree]
          exact .pure (.intro (tagged_mono htightens))
      · exact .error

theorem outdoes_union {xs ys : List Json} (h : List.Forall₂ HeldWithin xs ys) :
    Outdoes [("anyOf", .arr xs)] [("anyOf", .arr ys)] := by
  have hunion : ∀ alternatives, IsTyped [("anyOf", .arr alternatives)] := fun alternatives =>
    .of_members (by simp [Document.keys]) (by simp [hasForm])
  exact .of_unlisted (hunion xs) (hunion ys) (by simp [boundKeys, Document.keys])
    (.cons (.alternatives h) .nil)

theorem survives_encodeUnion (tagging : Tagging) {vs ws : List EncodedVariant}
    (h : List.Forall₂ (EncodedVariant.Corresponds Tightens) vs ws) :
    Survives Outdoes (tagging.encodeUnion vs) (tagging.encodeUnion ws) := by
  unfold encodeUnion
  refine .bind (.refl (fun _ => rfl) _) fun _ _ _ => ?_
  have hempty : vs.isEmpty = ws.isEmpty := by
    cases h <;> rfl
  rw [hempty]
  split
  · exact .error
  · refine .bind (.mapM (h.imp fun _ _ => survives_encode tagging)) fun xs ys hheld => .pure ?_
    exact outdoes_union hheld

end Encodings

end Schema
end ShapeSchema
