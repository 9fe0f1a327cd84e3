import ShapeSchema.Proofs.WellFormed.Fragment

/-!
The alternatives of a union are well formed, and none of them is that for null alone. A tag beside
the properties of a payload is required with these, and is none of them.
-/

namespace ShapeSchema.Schema

open Tagging

variable {d : Document}

/-- What may be an alternative of a union. -/
def IsAlternative (argument : Json) : Prop :=
  ∃ schema : Document, argument = .obj schema ∧ IsWellFormed schema ∧
    schema.get? "type" ≠ some (.str "null")

theorem IsCoherent.isAlternative (hd : IsCoherent d) : IsAlternative (.obj d) :=
  ⟨d, rfl, hd.wellFormed, hd.notNull⟩

theorem IsAlternative.isWellFormed (h : IsAlternative (.obj d)) : IsWellFormed d := by
  obtain ⟨_, ⟨⟩, hd, _⟩ := h
  exact hd

theorem isAlternative_objectWith {properties further : Document} {keys : List String}
    (h : IsWellFormed (objectWith properties keys further)) :
    IsAlternative (.obj (objectWith properties keys further)) :=
  ⟨_, rfl, h, by simp [objectWith, Document.get?_cons]⟩

theorem isRegular_of_unconstrained (hd : ∀ key ∈ "items" :: dependentKeys, key ∉ d.keys) :
    IsRegular d := by
  have hnone : ∀ key ∈ "items" :: dependentKeys, d.get? key = none := fun key hkey =>
    Document.get?_eq_none (hd key hkey)
  simp only [dependentKeys, List.forall_mem_cons] at hnone
  constructor <;> simp_all [has_eq_isSome]

theorem isAlternative_tagSchema (key : String) : IsAlternative (tagSchema key) := by
  refine ⟨_, rfl, isWellFormed_iff_members.mpr ⟨isRegular_of_unconstrained ?_, ?_⟩, ?_⟩
  · simp [dependentKeys, Document.keys]
  · simp [holdsWellFormed_of_not_mem]
  · simp [Document.get?_cons]

theorem closedObject_eq {properties : Document} (hne : properties ≠ []) :
    closedObject properties =
      objectWith properties properties.keys [("additionalProperties", .bool false)] := by
  cases properties with
  | nil => exact absurd rfl hne
  | cons head rest => rfl

/-- A closed object with a property or several is an alternative if their schemas could be some. -/
theorem isAlternative_closedObject {properties : Document} (hne : properties ≠ [])
    (hnodup : properties.keys.Nodup) (hproperties : ∀ member ∈ properties, IsAlternative member.2) :
    IsAlternative (.obj (closedObject properties)) := by
  rw [closedObject_eq hne]
  refine isAlternative_objectWith (isWellFormed_objectWith hnodup ?_ ?_ ?_ ?_)
  · exact fun key hkey => Document.has_eq_mem.mpr hkey
  · simp [Document.keys]
  · refine holdsWellFormed_properties_iff.mpr fun key schema hmem => ?_
    exact (hproperties _ hmem).isWellFormed
  · simp [holdsWellFormed_bool]

/-- A payload beside a tag requires its own properties and the tag, which is none of them. -/
theorem isAlternative_tagged (hd : IsCoherent d) {tag : String} (key : String)
    (htag : (propertiesOf d).has tag = false) : IsAlternative (.obj (tagged tag key d)) := by
  obtain ⟨keys, hkeys, hnodup, hlisted⟩ : ∃ keys : List String, requiredOf d = keys.map .str ∧
      keys.Nodup ∧ ∀ key ∈ keys, (propertiesOf d).has key := by
    cases hfound : d.get? "required" with
    | none => exact ⟨[], by simp [requiredOf, requiredPart, Json.member?, hfound], by simp, by simp⟩
    | some argument =>
      obtain ⟨keys, properties, rfl, hproperties, _, hnodup, hlisted⟩ :=
        (hd.wellFormed d (mem_subschemas_self d)).required argument hfound
      refine ⟨keys, by simp [requiredOf, requiredPart, Json.member?, hfound], hnodup, ?_⟩
      rwa [propertiesOf_of_get? hproperties]
  have htagged : tagged tag key d = objectWith ((tag, tagSchema key) :: propertiesOf d)
      (tag :: keys) ((d.get? "additionalProperties").map (("additionalProperties", ·))).toList := by
    rw [tagged, hkeys]
    rfl
  have hfresh : tag ∉ keys := fun hmem => by simp [hlisted tag hmem] at htag
  rw [htagged]
  refine isAlternative_objectWith (isWellFormed_objectWith ?_ ?_ ?_ ?_ ?_)
  · exact List.nodup_cons.mpr ⟨hfresh, hnodup⟩
  · intro other hother
    rcases List.mem_cons.mp hother with rfl | hother
    · simp [Document.has]
    · have hhas := hlisted other hother
      simp only [Document.has, List.any_cons, Bool.or_eq_true] at hhas ⊢
      exact .inr hhas
  · cases d.get? "additionalProperties" <;> simp [Document.keys]
  · refine holdsWellFormed_properties_iff.mpr fun name schema hmem => ?_
    rcases List.mem_cons.mp hmem with heq | hmem
    · cases heq
      exact (isAlternative_tagSchema key).isWellFormed
    · cases hfound : d.get? "properties" with
      | none => simp [propertiesOf_of_none hfound] at hmem
      | some argument =>
        have hheld := hd.wellFormed.held hfound
        have hform := hd.typed.form hfound
        cases argument <;> simp [hasForm] at hform
        rw [propertiesOf_of_get? hfound] at hmem
        exact holdsWellFormed_properties_iff.mp hheld name schema hmem
  · cases hfound : d.get? "additionalProperties" with
    | none => simp
    | some argument => simpa using hd.wellFormed.held hfound

def IsPayload (variant : EncodedVariant) : Prop :=
  ∀ schema, variant.schema? = some schema → ∃ d, schema = .obj d ∧ IsCoherent d

theorem isAlternative_payload {variant : EncodedVariant} (h : IsPayload variant) :
    IsAlternative variant.payload := by
  obtain ⟨key, schema, mergeable⟩ := variant
  cases schema with
  | some schema =>
    obtain ⟨d, rfl, hd⟩ := h schema rfl
    exact hd.isAlternative
  | none =>
    refine ⟨_, rfl, isWellFormed_iff_members.mpr ⟨?_, ?_⟩, ?_⟩
    · constructor <;> simp [has_eq_isSome, Document.get?_cons, IsTypeSpec]
    · simp [holdsWellFormed_of_not_mem]
    · simp [Document.get?_cons]

/-- Every variant that can be encoded becomes an alternative of its union. -/
theorem yields_encode {tagging : Tagging} (hcheck : tagging.check = .ok ())
    {variant : EncodedVariant} (h : IsPayload variant) :
    Yields IsAlternative (tagging.encode variant) := by
  have hpayload := isAlternative_payload h
  have htag := isAlternative_tagSchema variant.key
  cases tagging with
  | external =>
    refine isAlternative_closedObject (by simp) (by simp [Document.keys]) ?_
    simpa using hpayload
  | adjacent tag content =>
    have hne : tag ≠ content := by
      rintro rfl
      rw [check, if_pos rfl] at hcheck
      split at hcheck <;> cases hcheck
    refine isAlternative_closedObject (by simp) (by simp [Document.keys, hne]) ?_
    simpa using ⟨htag, hpayload⟩
  | untagged => exact hpayload
  | internal tag =>
    obtain ⟨key, schema, mergeable⟩ := variant
    cases schema with
    | none =>
      refine isAlternative_closedObject (by simp) (by simp [Document.keys]) ?_
      simpa using htag
    | some schema =>
      obtain ⟨d, rfl, hd⟩ := h schema rfl
      simp only [encode, mergeTag_of_isTyped hd.typed]
      split
      · cases hlisted : (propertiesOf d).has tag with
        | true => trivial
        | false => exact isAlternative_tagged hd key hlisted
      · trivial

theorem IsAlternative.ne_nullOnly {argument : Json} (h : IsAlternative argument) :
    argument ≠ nullOnly := by
  obtain ⟨schema, rfl, _, hnull⟩ := h
  rintro ⟨⟩
  exact hnull rfl

theorem isRegular_anyOf {alternatives : List Json} (hne : alternatives ≠ [])
    (hcount : alternatives.count nullOnly ≤ 1) : IsRegular [("anyOf", .arr alternatives)] := by
  constructor <;>
    simp [has_eq_isSome, Document.get?_cons, IsTypeSpec, hne, hcount]

/-- A union of alternatives is in order, and has none for null unless it gets one later. -/
theorem isFresh_union {alternatives : List Json} (hne : alternatives ≠ [])
    (halternatives : ∀ argument ∈ alternatives, IsAlternative argument) :
    IsFresh [("anyOf", .arr alternatives)] := by
  have hcount : alternatives.count nullOnly = 0 := by
    refine List.count_eq_zero.mpr fun hmem => ?_
    exact (halternatives nullOnly hmem).ne_nullOnly rfl
  refine .of_members (.refl (.of_members ?_ ?_) ?_) (isRegular_anyOf hne (by omega)) ?_ ?_ ?_
  · simp [Document.keys]
  · simp [hasForm]
  · simp [boundKeys, Document.keys]
  · have hheld : HoldsWellFormed "anyOf" (.arr alternatives) := by
      refine (holdsWellFormed_schemas_iff (.inl rfl)).mpr fun schema hmem => ?_
      exact (halternatives _ hmem).isWellFormed
    simpa using hheld
  · simp [Document.get?_cons]
  · simp [Document.keys]

theorem yields_check (tagging : Tagging) : Yields (fun _ => True) tagging.check := by
  cases tagging with
  | internal tag =>
    simp only [check]
    split <;> trivial
  | adjacent tag content =>
    simp only [check]
    split
    · trivial
    · split <;> trivial
  | _ => trivial

/-- The schema of an enum is in order if the payloads of its variants are. -/
theorem yields_encodeUnion (tagging : Tagging) {variants : List EncodedVariant}
    (h : ∀ variant ∈ variants, IsPayload variant) :
    Yields IsFresh (tagging.encodeUnion variants) := by
  unfold encodeUnion
  refine (yields_check tagging).eq_ok.bind fun _ hcheck => ?_
  refine .guarded .noVariants trivial fun hne => ?_
  refine .bind (.mapM fun variant hmem => yields_encode hcheck (h variant hmem)) ?_
  rintro alternatives ⟨hlength, halternatives⟩
  refine isFresh_union ?_ halternatives
  rintro rfl
  rw [List.length_nil, eq_comm, List.length_eq_zero_iff] at hlength
  exact hne (List.isEmpty_iff.mpr hlength)

end ShapeSchema.Schema
