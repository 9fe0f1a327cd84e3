import ShapeSchema.Proofs.Acceptance.Fidelity

/-!
Alternatives that exclude each other. Every convention but the one without a tag shows the key of a
variant in each value that the alternative of the variant accepts, whatever the payload is. A value
shows one key at most, so that the alternatives of different keys have no value in common, and none
of them has null.
-/

namespace ShapeSchema

namespace Tagging

/-- Whether a value is an object with a tag that is a certain text wherever it occurs. -/
def IsTagged (tag key : String) (value : Stored) : Prop :=
  ∃ members, value = .object members ∧ (∃ member ∈ members, member.1 = tag) ∧
    ∀ member ∈ members, member.1 = tag → member.2 = .text key

/-- Whether a value shows a key where a convention stores it: as the only key of an object, or under
the tag. Without a tag there is nothing to show. -/
def Shows (tagging : Tagging) (key : String) (value : Stored) : Prop :=
  match tagging with
  | external => ∃ members, value = .object members ∧ (∃ member ∈ members, member.1 = key) ∧
      ∀ member ∈ members, member.1 = key
  | internal tag | adjacent tag _ => IsTagged tag key value
  | untagged => True

variable {tagging : Tagging} {key other : String} {value : Stored}

theorem IsTagged.key_eq {tag : String} (h : IsTagged tag key value)
    (hother : IsTagged tag other value) : key = other := by
  obtain ⟨members, rfl, ⟨member, hmem, htag⟩, hkey⟩ := h
  obtain ⟨_, heq, _, hall⟩ := hother
  cases heq
  have htext : Stored.text key = .text other := by
    rw [← hkey member hmem htag, hall member hmem htag]
  exact Stored.text.inj htext

/-- No value shows two keys. -/
theorem Shows.key_eq (htagged : tagging ≠ .untagged) (h : tagging.Shows key value)
    (hother : tagging.Shows other value) : key = other := by
  cases tagging with
  | external =>
    obtain ⟨members, rfl, ⟨member, hmem, hkey⟩, _⟩ := h
    obtain ⟨_, heq, _, hall⟩ := hother
    cases heq
    rw [← hkey, hall member hmem]
  | internal | adjacent => exact IsTagged.key_eq h hother
  | untagged => exact absurd rfl htagged

/-- Null shows no key. -/
theorem not_shows_null (htagged : tagging ≠ .untagged) : ¬ tagging.Shows key .null := by
  intro h
  cases tagging with
  | untagged => exact htagged rfl
  | _ =>
    obtain ⟨_, heq, _⟩ := h
    cases heq

end Tagging

namespace Schema

open Tagging

variable {reading : Reading} {value : Stored} {tag key : String}

/-- A schema of objects that lists a tag before its other properties and requires it shows the tag,
whatever else it says. -/
theorem isTagged_of_accepts {d properties : Document} {required : List Json}
    (htype : ("type", .str "object") ∈ d)
    (hproperties : ("properties", .obj ((tag, tagSchema key) :: properties)) ∈ d)
    (hrequired : ("required", .arr (.str tag :: required)) ∈ d)
    (haccepts : accepts reading d value) : IsTagged tag key value := by
  rw [accepts, acceptsAll_iff] at haccepts
  have hobject := haccepts _ htype
  have hlisted := haccepts _ hproperties
  have hneeded := haccepts _ hrequired
  rw [acceptsKeyword_type, hasType_object] at hobject
  obtain ⟨members, rfl⟩ := hobject
  rw [acceptsKeyword_properties] at hlisted
  rw [acceptsKeyword_required] at hneeded
  refine ⟨members, rfl, ?_, fun member hmem htag => ?_⟩
  · obtain ⟨member, hmem, htag⟩ := hneeded members rfl (.str tag) List.mem_cons_self
    exact ⟨member, hmem, Json.str.inj htag⟩
  · have hmember := hlisted members rfl member hmem
    rw [tagSchema, acceptsProperty, if_pos htag.symm] at hmember
    exact accepts_tagSchema.mp hmember

theorem isTagged_of_closedObject {properties : Document}
    (haccepts : accepts reading (closedObject ((tag, tagSchema key) :: properties)) value) :
    IsTagged tag key value :=
  isTagged_of_accepts (.head _) (.tail _ (.head _)) (.tail _ (.tail _ (.head _))) haccepts

theorem isTagged_of_mergeTag {schema : Json} {merged : Document}
    (hmerge : mergeTag tag key schema = .ok merged) (haccepts : accepts reading merged value) :
    IsTagged tag key value := by
  obtain ⟨collides, _, hmerge⟩ := bind_eq_ok.mp hmerge
  split at hmerge
  · cases hmerge
  · obtain ⟨properties, _, hmerge⟩ := bind_eq_ok.mp hmerge
    obtain ⟨required, _, hmerge⟩ := bind_eq_ok.mp hmerge
    cases hmerge
    exact isTagged_of_accepts (.head _) (.tail _ (.head _)) (.tail _ (.tail _ (.head _))) haccepts

/-- The alternative of a variant shows the key of the variant. -/
theorem shows_of_encode {tagging : Tagging} (htagged : tagging ≠ .untagged)
    {variant : EncodedVariant} {schema : Json} (hencode : tagging.encode variant = .ok schema) :
    ∃ alternative, schema = .obj alternative ∧ ∀ reading value,
      accepts reading alternative value → tagging.Shows variant.key value := by
  cases tagging with
  | external =>
    cases hencode
    refine ⟨_, rfl, fun reading value haccepts => ?_⟩
    obtain ⟨members, rfl, _, hrequired, honly⟩ := accepts_closedObject_iff.mp haccepts
    refine ⟨members, rfl, hrequired variant.key (by simp [Document.keys]), fun member hmem => ?_⟩
    have hlisted := honly member hmem
    simp only [Document.has_eq_mem, Document.keys, List.map_cons, List.map_nil,
      List.mem_singleton] at hlisted
    exact hlisted
  | adjacent tag content =>
    cases hencode
    exact ⟨_, rfl, fun reading value haccepts => isTagged_of_closedObject haccepts⟩
  | untagged => exact absurd rfl htagged
  | internal tag =>
    rw [encode] at hencode
    split at hencode
    · cases hencode
      exact ⟨_, rfl, fun reading value haccepts => isTagged_of_closedObject haccepts⟩
    · split at hencode
      · obtain ⟨merged, hmerge, hencode⟩ := bind_eq_ok.mp hencode
        cases hencode
        exact ⟨merged, rfl, fun reading value haccepts => isTagged_of_mergeTag hmerge haccepts⟩
      · cases hencode

/-- Whether no value is accepted by both of two schemas. -/
def Excludes (d e : Document) : Prop :=
  ∀ reading value, ¬ (accepts reading d value ∧ accepts reading e value)

/-- A schema that is a union and nothing else stays one. -/
theorem widenNullable_union (alternatives : List Json) :
    widenNullable [("anyOf", .arr alternatives)] =
      .ok [("anyOf", .arr (if nullOnly ∈ alternatives then alternatives
        else alternatives ++ [nullOnly]))] := by
  have hbson : Document.get? "bsonType" [("anyOf", Json.arr alternatives)] = none := by
    simp [Document.get?_cons]
  have htype : Document.get? "type" [("anyOf", Json.arr alternatives)] = none := by
    simp [Document.get?_cons]
  have hany : Document.get? "anyOf" [("anyOf", Json.arr alternatives)] =
      some (.arr alternatives) := by
    simp [Document.get?_cons]
  rw [widenNullable_of_anyOf hbson htype hany]
  split
  · rfl
  · simp [Document.put]

end Schema
end ShapeSchema
