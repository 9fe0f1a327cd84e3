import ShapeSchema.Proofs.Acceptance.Tightening

/-!
Encoded variants of a union. What a tag leaves of a payload schema is said by three of its keywords
about the members other than the tag, so that a union accepts no less if the payloads say no more.
-/

namespace ShapeSchema.Schema

open Tagging

def requiredOf (schema : Document) : List Json :=
  match requiredPart (.obj schema) with
  | .arr keys => keys
  | _ => []

/-- A payload schema with the tag in front of its properties. -/
def tagged (tag key : String) (schema : Document) : Document :=
  [("type", .str "object"), ("properties", .obj ((tag, tagSchema key) :: propertiesOf schema)),
    ("required", .arr (.str tag :: requiredOf schema))] ++
    ((schema.get? "additionalProperties").map (("additionalProperties", ·))).toList

theorem propertiesPart_of_isTyped {d : Document} (hd : IsTyped d) :
    propertiesPart (.obj d) = .obj (propertiesOf d) := by
  cases hfound : d.get? "properties" with
  | none => simp [propertiesOf, propertiesPart, Json.member?, hfound]
  | some argument =>
    have hform := hd.form hfound
    cases argument <;> simp [hasForm] at hform
    simp [propertiesOf, propertiesPart, Json.member?, hfound]

theorem requiredPart_of_isTyped {d : Document} (hd : IsTyped d) :
    requiredPart (.obj d) = .arr (requiredOf d) := by
  cases hfound : d.get? "required" with
  | none => simp [requiredOf, requiredPart, Json.member?, hfound]
  | some argument =>
    have hform := hd.form hfound
    cases argument <;> simp [hasForm] at hform
    simp [requiredOf, requiredPart, Json.member?, hfound]

/-- A tag can be merged with a typed schema unless that has a property of this name. -/
theorem mergeTag_of_isTyped {d : Document} (hd : IsTyped d) (tag key : String) :
    mergeTag tag key (.obj d) =
      if (propertiesOf d).has tag then .error (.tagCollision key tag)
      else .ok (tagged tag key d) := by
  simp only [mergeTag, propertiesPart_of_isTyped hd, requiredPart_of_isTyped hd, Json.holds,
    Json.members, Json.items, Json.member?]
  cases (propertiesOf d).has tag <;> rfl

section Tagged

variable {d e : Document} {reading : Reading} {tag key : String}

theorem accepts_tagSchema {value : Stored} :
    accepts reading [("enum", .arr [.str key])] value ↔ value = .text key := by
  rw [accepts, acceptsAll_iff]
  cases value <;> simp [acceptsKeyword, acceptsPlain, Stored.isScalar]

theorem propertiesOf_tagged :
    propertiesOf (tagged tag key d) = (tag, tagSchema key) :: propertiesOf d :=
  propertiesOf_of_get? (by simp [tagged, Document.get?_cons])

theorem acceptsProperty_tagged {name : String} {value : Stored} :
    acceptsProperty reading name ((tag, tagSchema key) :: propertiesOf d) value ↔
      if tag = name then value = .text key
      else acceptsProperty reading name (propertiesOf d) value := by
  unfold tagSchema
  rw [acceptsProperty]
  split
  · exact accepts_tagSchema
  · rfl

theorem hasType_object {value : Stored} :
    hasType value (.str "object") ↔ ∃ members, value = .object members := by
  cases value with
  | number storage _ => cases storage <;> simp [hasType, Stored.typeNames]
  | _ => simp [hasType, Stored.typeNames]

theorem passes_properties_iff (hd : IsTyped d) {members : List (String × Stored)} :
    passes reading d "properties" (.object members) ↔
      ∀ member ∈ members, acceptsProperty reading member.1 (propertiesOf d) member.2 := by
  cases hfound : d.get? "properties" with
  | none => simp [passes, hfound, propertiesOf_of_none hfound, acceptsProperty]
  | some argument =>
    have hform := hd.form hfound
    cases argument <;> simp [hasForm] at hform
    rw [passes_of_get? hfound, acceptsKeyword_properties, propertiesOf_of_get? hfound]
    simp

theorem passes_required_iff (hd : IsTyped d) {members : List (String × Stored)} :
    passes reading d "required" (.object members) ↔
      ∀ name ∈ requiredOf d, ∃ member ∈ members, .str member.1 = name := by
  cases hfound : d.get? "required" with
  | none => simp [passes, hfound, requiredOf, requiredPart, Json.member?]
  | some argument =>
    have hform := hd.form hfound
    cases argument <;> simp [hasForm] at hform
    rw [passes_of_get? hfound, acceptsKeyword_required]
    simp [requiredOf, requiredPart, Json.member?, hfound]

theorem passes_additional_iff {members : List (String × Stored)} :
    passes reading d "additionalProperties" (.object members) ↔
      ∀ argument, d.get? "additionalProperties" = some argument → ∀ member ∈ members,
        (propertiesOf d).has member.1 ∨ acceptsFurther reading argument member.2 := by
  cases hfound : d.get? "additionalProperties" with
  | none => simp [passes, hfound]
  | some argument =>
    rw [passes_of_get? hfound, acceptsKeyword_additional]
    simp

theorem accepts_tagged {value : Stored} :
    accepts reading (tagged tag key d) value ↔ hasType value (.str "object") ∧
      ∀ members, value = .object members →
        (∀ member ∈ members, if tag = member.1 then member.2 = .text key
          else acceptsProperty reading member.1 (propertiesOf d) member.2) ∧
        (∀ name ∈ .str tag :: requiredOf d, ∃ member ∈ members, .str member.1 = name) ∧
        ∀ argument, d.get? "additionalProperties" = some argument → ∀ member ∈ members,
          (tag = member.1 ∨ (propertiesOf d).has member.1) ∨
            acceptsFurther reading argument member.2 := by
  have hhas : ∀ name, (propertiesOf (tagged tag key d)).has name ↔
      tag = name ∨ (propertiesOf d).has name := by
    intro name
    rw [propertiesOf_tagged]
    simp [Document.has]
  have hmembers : ∀ whole, acceptsAll reading whole (tagged tag key d) value ↔
      hasType value (.str "object") ∧
      acceptsKeyword reading whole "properties"
        (.obj ((tag, tagSchema key) :: propertiesOf d)) value ∧
      acceptsKeyword reading whole "required" (.arr (.str tag :: requiredOf d)) value ∧
      ∀ argument, d.get? "additionalProperties" = some argument →
        acceptsKeyword reading whole "additionalProperties" argument value := by
    intro whole
    rw [acceptsAll_iff, tagged, List.forall_mem_append]
    simp [acceptsKeyword_type, and_assoc]
  rw [accepts, hmembers, acceptsKeyword_properties, acceptsKeyword_required]
  simp only [acceptsKeyword_additional, acceptsProperty_tagged, hhas]
  constructor
  · rintro ⟨htype, hproperties, hrequired, hadditional⟩
    exact ⟨htype, fun members h => ⟨hproperties members h, hrequired members h,
      fun argument hfound => hadditional argument hfound members h⟩⟩
  · rintro ⟨htype, hrest⟩
    exact ⟨htype, fun members h => (hrest members h).1, fun members h => (hrest members h).2.1,
      fun argument hfound members h => (hrest members h).2.2 argument hfound⟩

theorem tagged_mono (h : Tightens d e) : Within (tagged tag key d) (tagged tag key e) := by
  intro reading value haccepts
  obtain ⟨htype, hrest⟩ := accepts_tagged.mp haccepts
  refine accepts_tagged.mpr ⟨htype, fun members hvalue => ?_⟩
  obtain ⟨hproperties, hrequired, hadditional⟩ := hrest members hvalue
  -- what the payload says about properties and about further ones concerns the other members
  have hothers : ∀ member, member ∈ members.filter (tag ≠ ·.1) ↔
      member ∈ members ∧ tag ≠ member.1 := by
    simp
  have hproperties' : passes reading d "properties" (.object (members.filter (tag ≠ ·.1))) := by
    refine (passes_properties_iff h.left).mpr fun other hother => ?_
    obtain ⟨hmem, hne⟩ := (hothers other).mp hother
    simpa [hne] using hproperties other hmem
  have hrequired' : passes reading d "required" (.object members) :=
    (passes_required_iff h.left).mpr fun name hname => hrequired name (List.mem_cons_of_mem _ hname)
  have hadditional' :
      passes reading d "additionalProperties" (.object (members.filter (tag ≠ ·.1))) := by
    refine passes_additional_iff.mpr fun argument hfound other hother => ?_
    obtain ⟨hmem, hne⟩ := (hothers other).mp hother
    simpa [hne] using hadditional argument hfound other hmem
  refine ⟨fun member hmem => ?_, fun name hname => ?_, fun argument hfound member hmem => ?_⟩
  · split
    · next htag => simpa [htag] using hproperties member hmem
    · next htag =>
      exact (passes_properties_iff h.right).mp (h.passes hproperties') member
        ((hothers member).mpr ⟨hmem, htag⟩)
  · rcases List.mem_cons.mp hname with rfl | hname
    · exact hrequired _ List.mem_cons_self
    · exact (passes_required_iff h.right).mp (h.passes hrequired') name hname
  · by_cases htag : tag = member.1
    · exact .inl (.inl htag)
    · exact (passes_additional_iff.mp (h.passes hadditional') argument hfound member
        ((hothers member).mpr ⟨hmem, htag⟩)).imp_left .inr

end Tagged

end ShapeSchema.Schema
