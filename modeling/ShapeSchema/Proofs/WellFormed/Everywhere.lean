import ShapeSchema.Proofs.Acceptance.Fidelity
import ShapeSchema.Proofs.Acceptance.Range
import ShapeSchema.Proofs.WellFormed.Adjustment

/-!
What holds of a schema and of all schemas inside it, where it is about the property keys of each of
them and, for the schemas of numbers, about their ranges. A schema that is put together of others
has no range, so it has such a property everywhere if these have it and its own property keys are in
order.
-/

namespace ShapeSchema

/-- The property keys that a variant with a key has apart from those of its payload. -/
def Tagging.ownKeys (tagging : Tagging) (key : String) : List String :=
  match tagging with
  | external => [key]
  | internal tag => [tag]
  | adjacent tag content => [tag, content]
  | untagged => []

namespace Schema

open Tagging

/-- Whether a property of single schemas is about property keys, ranges aside. -/
structure ReadsKeys (P : Document → Prop) (Q : String → Prop) : Prop where
  unranged : ∀ {d : Document}, "minimum" ∉ d.keys → "maximum" ∉ d.keys →
    (P d ↔ ∀ key ∈ (propertiesOf d).keys, Q key)
  /-- What kind of value is meant makes no difference. -/
  put_kind : ∀ {d : Document} {keyword : String} {argument : Json},
    keyword ∈ ["bsonType", "type", "anyOf"] → (P (d.put keyword argument) ↔ P d)

namespace ReadsKeys

variable {P : Document → Prop} {Q : String → Prop} (hP : ReadsKeys P Q) {d e : Document}
include hP

/-- A schema without range keywords is settled by its property keys and by what its keywords
hold. -/
theorem everywhere_iff_members (hkeys : "minimum" ∉ d.keys ∧ "maximum" ∉ d.keys) :
    Everywhere P d ↔ (∀ key ∈ (propertiesOf d).keys, Q key) ∧
      ∀ member ∈ d, HeldEverywhere P member.1 member.2 := by
  rw [Schema.everywhere_iff_members, hP.unranged hkeys.1 hkeys.2]

/-- The same without properties. -/
theorem everywhere_iff_of_none (hkeys : "minimum" ∉ d.keys ∧ "maximum" ∉ d.keys)
    (hnone : d.get? "properties" = none) :
    Everywhere P d ↔ ∀ member ∈ d, HeldEverywhere P member.1 member.2 := by
  rw [hP.everywhere_iff_members hkeys, propertiesOf_of_none hnone]
  exact and_iff_right (by simp [Document.keys])

section Fragments

theorem everywhere_nil : Everywhere P [] := by
  rw [hP.everywhere_iff_of_none (by simp [Document.keys]) rfl]
  simp

theorem everywhere_kind (name : String) {kind : String} (hkind : kind ∈ ["type", "bsonType"]) :
    Everywhere P [(kind, .str name)] := by
  rcases List.mem_pair.mp hkind with rfl | rfl <;>
    simp [hP.everywhere_iff_of_none, Document.keys, Document.get?_cons, heldEverywhere_of_not_mem]

theorem everywhere_unit : Everywhere P unit := by
  simp [unit, hP.everywhere_iff_of_none, Document.keys, Document.get?_cons,
    heldEverywhere_of_not_mem]

theorem everywhere_array : Everywhere P (array d) ↔ Everywhere P d := by
  simp [array, hP.everywhere_iff_of_none, Document.keys, Document.get?_cons,
    heldEverywhere_of_not_mem, heldEverywhere_schema_iff]

theorem everywhere_set : Everywhere P (set d) ↔ Everywhere P d := by
  simp [set, hP.everywhere_iff_of_none, Document.keys, Document.get?_cons,
    heldEverywhere_of_not_mem, heldEverywhere_schema_iff]

theorem everywhere_fixedArray (length : Nat) :
    Everywhere P (fixedArray d length) ↔ Everywhere P d := by
  simp [fixedArray, hP.everywhere_iff_of_none, Document.keys, Document.get?_cons,
    heldEverywhere_of_not_mem, heldEverywhere_schema_iff]

theorem everywhere_tuple {ds : List Document} :
    Everywhere P (tuple ds) ↔ ∀ d ∈ ds, Everywhere P d := by
  simp [tuple, hP.everywhere_iff_of_none, Document.keys, Document.get?_cons,
    heldEverywhere_of_not_mem, heldEverywhere_schemas_iff]

theorem everywhere_map {key : PrimitiveKind} (hdoc : map key (.obj d) = .ok e) :
    Everywhere P e ↔ Everywhere P d := by
  unfold map at hdoc
  split at hdoc
  · cases hdoc
    simp [hP.everywhere_iff_of_none, Document.keys, Document.get?_cons, heldEverywhere_of_not_mem,
      heldEverywhere_schema_iff]
  · cases hdoc

theorem everywhere_objectSchema {ps : List Context.Property} {x : Json} :
    Everywhere P (Context.objectSchema ps x) ↔
      (∀ p ∈ ps, Q p.key ∧ Everywhere P p.schema) ∧
        HeldEverywhere P "additionalProperties" x := by
  have hproperties : HeldEverywhere P "properties"
      (.obj (ps.map fun p => (p.key, .obj p.schema))) ↔ ∀ p ∈ ps, Everywhere P p.schema := by
    rw [heldEverywhere_properties_iff]
    constructor
    · exact fun h p hp => h p.key p.schema (List.mem_map.mpr ⟨p, hp, rfl⟩)
    · intro h key schema hmem
      obtain ⟨p, hp, ⟨⟩⟩ := List.mem_map.mp hmem
      exact h p hp
  have hkeys : (∀ key ∈ (propertiesOf (Context.objectSchema ps x)).keys, Q key) ↔
      ∀ p ∈ ps, Q p.key := by
    simp [propertiesOf_objectSchema, Document.keys]
  have hmembers : (∀ member ∈ Context.objectSchema ps x, HeldEverywhere P member.1 member.2) ↔
      (∀ p ∈ ps, Everywhere P p.schema) ∧ HeldEverywhere P "additionalProperties" x := by
    unfold Context.objectSchema
    dsimp only
    split <;> simp [heldEverywhere_of_not_mem, hproperties]
  have hunranged : "minimum" ∉ (Context.objectSchema ps x).keys ∧
      "maximum" ∉ (Context.objectSchema ps x).keys := by
    constructor <;>
      exact fun hkey => absurd ((keys_objectSchema ps x).subset hkey) (by decide)
  rw [hP.everywhere_iff_members hunranged, hkeys, hmembers, ← and_assoc, ← forall₂_and]

theorem everywhere_closedObject {properties : Document} :
    Everywhere P (closedObject properties) ↔ (∀ key ∈ properties.keys, Q key) ∧
      ∀ key schema, (key, .obj schema) ∈ properties → Everywhere P schema := by
  have hlisted : propertiesOf (closedObject properties) = properties :=
    propertiesOf_of_get? (by simp [closedObject, Document.get?_cons])
  rw [hP.everywhere_iff_members (by simp [closedObject, Document.keys]), hlisted]
  simp [closedObject, heldEverywhere_of_not_mem, heldEverywhere_bool,
    heldEverywhere_properties_iff]

theorem everywhere_union {alternatives : List Document} :
    Everywhere P [("anyOf", .arr (alternatives.map .obj))] ↔
      ∀ d ∈ alternatives, Everywhere P d := by
  simp [hP.everywhere_iff_of_none, Document.keys, Document.get?_cons, heldEverywhere_schemas_iff]

theorem everywhere_tagSchema (key : String) : Everywhere P [("enum", .arr [.str key])] := by
  simp [hP.everywhere_iff_of_none, Document.keys, Document.get?_cons, heldEverywhere_of_not_mem]

/-- In the schema of a payload that can stand beside a tag, two keywords hold schemas. -/
theorem everywhere_plainObject (hd : IsPlainObject d) : Everywhere P d ↔
    (∀ key ∈ (propertiesOf d).keys, Q key) ∧
      ∀ keyword ∈ ["properties", "additionalProperties"], ∀ argument,
        d.get? keyword = some argument → HeldEverywhere P keyword argument := by
  have hendless : ∀ key ∈ ["minimum", "maximum"], key ∉ d.keys := by
    intro key hkey hmem
    have hlisted := hd.keys hmem
    rcases List.mem_pair.mp hkey with rfl | rfl <;> simp at hlisted
  rw [everywhere_iff_get? hd.typed.nodup,
    hP.unranged (hendless "minimum" (by simp)) (hendless "maximum" (by simp))]
  refine and_congr_right fun _ =>
    ⟨fun h keyword _ => h keyword, fun h keyword argument hfound => ?_⟩
  have hlisted := hd.keys (Document.has_eq_mem.mp (Document.has_iff.mpr ⟨argument, hfound⟩))
  simp only [List.mem_cons, List.not_mem_nil, or_false] at hlisted
  rcases hlisted with rfl | rfl | rfl | rfl
  · exact heldEverywhere_of_not_mem (by simp)
  · exact h _ (by simp) argument hfound
  · exact heldEverywhere_of_not_mem (by simp)
  · exact h _ (by simp) argument hfound

/-- The tag adds nothing but its own key. -/
theorem everywhere_tagged (hd : IsPlainObject d) (tag key : String) :
    Everywhere P (tagged tag key d) ↔ Q tag ∧ Everywhere P d := by
  have hproperties : HeldEverywhere P "properties"
        (.obj ((tag, tagSchema key) :: propertiesOf d)) ↔
      ∀ argument, d.get? "properties" = some argument →
        HeldEverywhere P "properties" argument := by
    have hcons : HeldEverywhere P "properties"
          (.obj ((tag, tagSchema key) :: propertiesOf d)) ↔
        HeldEverywhere P "properties" (.obj (propertiesOf d)) := by
      simp [heldEverywhere_properties_iff, tagSchema, or_imp, forall_and, hP.everywhere_tagSchema]
    rw [hcons]
    cases hfound : d.get? "properties" with
    | none => simp [propertiesOf_of_none hfound, heldEverywhere_properties_iff]
    | some argument =>
      have hform := hd.typed.form hfound
      cases argument <;> simp [hasForm] at hform
      simp [propertiesOf_of_get? hfound]
  have hmembers : (∀ member ∈ tagged tag key d, HeldEverywhere P member.1 member.2) ↔
      ∀ keyword ∈ ["properties", "additionalProperties"], ∀ argument,
        d.get? keyword = some argument → HeldEverywhere P keyword argument := by
    simp only [List.mem_pair, forall_eq_or_imp, forall_eq, ← hproperties, tagged]
    cases d.get? "additionalProperties" <;> simp [heldEverywhere_of_not_mem]
  rw [hP.everywhere_plainObject hd, hP.everywhere_iff_members, propertiesOf_tagged, hmembers,
    Document.keys, List.map_cons, List.forall_mem_cons, and_assoc]
  · rfl
  · cases hfound : d.get? "additionalProperties" <;> simp [tagged, Document.keys, hfound]

/-- The alternative of a variant has the property if its payload has, and if its own keys are in
order. -/
theorem everywhere_encode {tagging : Tagging} {key : String} {payload? : Option Document}
    {mergeable : Bool} (hplain : mergeable → ∀ doc, payload? = some doc → IsPlainObject doc)
    {alternative : Json}
    (hencode : tagging.encode ⟨key, payload?.map .obj, mergeable⟩ = .ok alternative) :
    ∃ schema, alternative = .obj schema ∧
      (Everywhere P schema ↔ (∀ own ∈ tagging.ownKeys key, Q own) ∧
        ∀ doc, payload? = some doc → Everywhere P doc) := by
  have hpayload : ∃ doc, EncodedVariant.payload ⟨key, payload?.map .obj, mergeable⟩ = .obj doc ∧
      (Everywhere P doc ↔ ∀ doc, payload? = some doc → Everywhere P doc) := by
    cases payload? with
    | some doc => exact ⟨doc, rfl, by simp⟩
    | none =>
      refine ⟨_, rfl, ?_⟩
      simp [hP.everywhere_iff_of_none, Document.keys, Document.get?_cons,
        heldEverywhere_of_not_mem]
  obtain ⟨doc, heq, hdoc⟩ := hpayload
  cases tagging with
  | external =>
    cases hencode
    exact ⟨_, rfl, by simp [hP.everywhere_closedObject, heq, hdoc, ownKeys, Document.keys]⟩
  | adjacent tag content =>
    cases hencode
    exact ⟨_, rfl, by simp [hP.everywhere_closedObject, heq, hdoc, ownKeys, Document.keys,
      tagSchema, or_imp, forall_and, hP.everywhere_tagSchema]⟩
  | untagged =>
    cases hencode
    exact ⟨doc, heq, by simp [hdoc, ownKeys]⟩
  | internal tag =>
    cases payload? with
    | none =>
      cases hencode
      exact ⟨_, rfl, by simp [hP.everywhere_closedObject, ownKeys, Document.keys, tagSchema,
        hP.everywhere_tagSchema]⟩
    | some schema =>
      cases mergeable with
      | false => cases hencode
      | true =>
        have hobject := hplain rfl schema rfl
        obtain ⟨merged, hmerge, hencode⟩ := bind_eq_ok.mp hencode
        obtain ⟨_, rfl⟩ := (mergeTag_eq_ok hobject).mp hmerge
        cases hencode
        exact ⟨_, rfl, by simp [hP.everywhere_tagged hobject, ownKeys]⟩

end Fragments

section Widening

/-- Another argument for the keyword that says what kind of value is meant makes no difference if it
holds the same. -/
theorem everywhere_put_kind (hnodup : d.keys.Nodup) {keyword : String}
    (hkeyword : keyword ∈ ["bsonType", "type", "anyOf"]) {argument other : Json}
    (hfound : d.get? keyword = some argument)
    (hheld : HeldEverywhere P keyword other ↔ HeldEverywhere P keyword argument) :
    Everywhere P (d.put keyword other) ↔ Everywhere P d := by
  rw [everywhere_iff_get? (Document.nodup_keys_put hnodup keyword other),
    everywhere_iff_get? hnodup, hP.put_kind hkeyword]
  refine and_congr_right fun _ => forall_congr' fun key => ?_
  by_cases hkey : keyword = key
  · subst hkey
    simp [Document.get?_put, hfound, hheld]
  · rw [Document.get?_put_of_ne (Ne.symm hkey)]

/-- Null has no keys and no range: a widened schema has the property if the schema had it. -/
theorem everywhere_widened (hd : IsTyped d) (hok : widenNullable d = .ok e) :
    Everywhere P e ↔ Everywhere P d := by
  have hspec : ∀ {keyword : String} {spec : Json}, keyword ∈ ["bsonType", "type"] →
      d.get? keyword = some spec → (withNull spec).map (d.put keyword ·) = .ok e →
        (Everywhere P e ↔ Everywhere P d) := by
    intro keyword spec hkeyword hfound hok
    obtain ⟨widened, _, rfl⟩ := map_eq_ok.mp hok
    refine hP.everywhere_put_kind hd.nodup ?_ hfound (iff_of_true ?_ ?_)
    · rcases List.mem_pair.mp hkeyword with rfl | rfl <;> simp
    all_goals
      refine heldEverywhere_of_not_mem ?_
      rcases List.mem_pair.mp hkeyword with rfl | rfl <;> simp
  cases hbson : d.get? "bsonType" with
  | some spec =>
    simp only [widenNullable, hbson] at hok
    exact hspec (by simp) hbson hok
  | none =>
    cases htype : d.get? "type" with
    | some spec =>
      simp only [widenNullable, hbson, htype] at hok
      exact hspec (by simp) htype hok
    | none =>
      cases hany : d.get? "anyOf" with
      | none =>
        simp only [widenNullable, hbson, htype, hany] at hok
        cases hok
        rfl
      | some argument =>
        have hform := hd.form hany
        cases argument <;> simp [hasForm] at hform
        next alternatives =>
        rw [widenNullable_of_anyOf hbson htype hany] at hok
        cases hok
        split
        · rfl
        · refine hP.everywhere_put_kind hd.nodup (by simp) hany ?_
          rw [heldEverywhere_schemas_iff (.inl rfl), heldEverywhere_schemas_iff (.inl rfl)]
          simp [nullOnly, or_imp, forall_and, hP.everywhere_kind]

end Widening
end ReadsKeys
end Schema
end ShapeSchema
