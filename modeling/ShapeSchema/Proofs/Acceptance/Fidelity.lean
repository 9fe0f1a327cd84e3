import Mathlib.Data.List.Nodup
import ShapeSchema.Proofs.Acceptance.Encoding
import ShapeSchema.Proofs.Acceptance.Widening
import ShapeSchema.Proofs.Derivation.Level

/-!
The schemas of the four conventions accept exactly what the conventions store. A closed object
accepts the objects with its properties and no others, in any order; a payload beside a tag accepts
what it accepts without the tag, since nothing that it says concerns the tag.
-/

namespace ShapeSchema

/-- Members with different keys are the expected ones if these are among them and there are no other
keys. -/
theorem perm_of_keys {members expected : List (String × Stored)}
    (hmembers : (members.map Prod.fst).Nodup) (hexpected : (expected.map Prod.fst).Nodup)
    (hpresent : ∀ member ∈ expected, member ∈ members)
    (hkeys : ∀ member ∈ members, member.1 ∈ expected.map Prod.fst) : members.Perm expected := by
  refine (List.perm_ext_iff_of_nodup (.of_map _ hmembers) (.of_map _ hexpected)).mpr ?_
  intro member
  refine ⟨fun hmem => ?_, hpresent member⟩
  obtain ⟨other, hother, hkey⟩ := List.mem_map.mp (hkeys member hmem)
  obtain rfl : other = member :=
    List.inj_on_of_nodup_map hmembers (hpresent other hother) hmem hkey
  exact hother

namespace Schema

open Tagging

variable {reading : Reading} {value : Stored}

/-- The schema of an absent payload accepts null and the empty sequence. -/
theorem accepts_absent :
    accepts reading [("type", .arr [.str "array", .str "null"]), ("maxItems", .num (.int 0))]
      value ↔ value = .null ∨ value = .array [] := by
  rw [accepts, acceptsAll_iff]
  cases value with
  | number storage x =>
    cases storage <;> simp [acceptsKeyword, acceptsPlain, hasType, Stored.typeNames]
  | array items =>
    have hcount : acceptsCount (.array items) (.num (.int 0)) false ↔ items = [] := by
      have hzero : (Number.int 0).toRat? = some 0 := rfl
      have hlength : acceptsCount (.array items) (.num (.int 0)) false ↔
          (items.length : Rat) ≤ 0 := by
        simp [acceptsCount, hzero, within]
      rw [hlength, ← List.length_eq_zero_iff]
      exact_mod_cast Nat.le_zero
    simpa [acceptsKeyword, acceptsPlain, hasType, Stored.typeNames] using hcount
  | _ => simp [acceptsKeyword, acceptsPlain, acceptsCount, hasType, Stored.typeNames]

/-- Of properties with different keys, the one with its key speaks about a member. -/
theorem acceptsProperty_of_mem {properties : Document} (hnodup : properties.keys.Nodup)
    {key : String} {doc : Document} (hmem : (key, .obj doc) ∈ properties) :
    acceptsProperty reading key properties value ↔ accepts reading doc value := by
  induction properties with
  | nil => cases hmem
  | cons head rest ih =>
    obtain ⟨name, argument⟩ := head
    obtain ⟨hfresh, hrest⟩ := List.nodup_cons.mp hnodup
    rcases List.mem_cons.mp hmem with heq | hmem
    · cases heq
      simp [acceptsProperty, accepts]
    · have hne : name ≠ key := by
        rintro rfl
        exact hfresh (List.mem_map.mpr ⟨_, hmem, rfl⟩)
      rw [← ih hrest hmem]
      cases argument <;> simp [acceptsProperty, hne]

/-- Whether a value has exactly the listed members, in some order, and each passes the schema that
is listed with its key. -/
def HasExactly (reading : Reading) (listed : List (String × Document)) (value : Stored) : Prop :=
  ∃ (members : List (String × Stored)) (found : String → Stored), value = .object members ∧
    members.Perm (listed.map fun property => (property.1, found property.1)) ∧
      ∀ property ∈ listed, accepts reading property.2 (found property.1)

theorem accepts_closedObject_iff {properties : Document} :
    accepts reading (closedObject properties) value ↔ ∃ members, value = .object members ∧
      (∀ member ∈ members, acceptsProperty reading member.1 properties member.2) ∧
      (∀ key ∈ properties.keys, ∃ member ∈ members, member.1 = key) ∧
      ∀ member ∈ members, properties.has member.1 := by
  have hlisted : propertiesOf (closedObject properties) = properties :=
    propertiesOf_of_get? (by simp [closedObject, Document.get?_cons])
  rw [accepts, acceptsAll_iff]
  simp only [closedObject, List.forall_mem_cons, acceptsKeyword_type, hasType_object,
    acceptsKeyword_properties, acceptsKeyword_required, acceptsKeyword_additional]
  rw [closedObject] at hlisted
  rw [hlisted]
  constructor
  · rintro ⟨⟨members, rfl⟩, hproperties, hrequired, hadditional, _⟩
    refine ⟨members, rfl, hproperties members rfl, fun key hkey => ?_, fun member hmem => ?_⟩
    · obtain ⟨member, hmem, heq⟩ := hrequired members rfl (.str key) (List.mem_map_of_mem hkey)
      exact ⟨member, hmem, Json.str.inj heq⟩
    · simpa [acceptsFurther] using hadditional members rfl member hmem
  · rintro ⟨members, rfl, hproperties, hrequired, hadditional⟩
    refine ⟨⟨members, rfl⟩, ?_, ?_, ?_, by simp⟩
    · rintro _ ⟨⟩
      exact hproperties
    · rintro _ ⟨⟩ name hname
      obtain ⟨key, hkey, rfl⟩ := List.mem_map.mp hname
      obtain ⟨member, hmem, heq⟩ := hrequired key hkey
      exact ⟨member, hmem, congrArg Json.str heq⟩
    · rintro _ ⟨⟩ member hmem
      exact .inl (hadditional member hmem)

/-- A closed object accepts the objects with exactly its properties. -/
theorem accepts_closedObject (listed : List (String × Document))
    (hnodup : (listed.map Prod.fst).Nodup) (hdistinct : value.KeysDistinct) :
    accepts reading (closedObject (listed.map fun p => (p.1, .obj p.2))) value ↔
      HasExactly reading listed value := by
  have hkeys : Document.keys (listed.map fun p => (p.1, Json.obj p.2)) = listed.map Prod.fst := by
    simp [Document.keys, Function.comp_def]
  have hproperty : ∀ {key doc value}, (key, doc) ∈ listed →
      (acceptsProperty reading key (listed.map fun p => (p.1, Json.obj p.2)) value ↔
        accepts reading doc value) := by
    intro key doc value hmem
    exact acceptsProperty_of_mem (hkeys ▸ hnodup) (List.mem_map.mpr ⟨_, hmem, rfl⟩)
  rw [accepts_closedObject_iff]
  simp only [Document.has_eq_mem, hkeys]
  constructor
  · rintro ⟨members, rfl, hproperties, hrequired, hadditional⟩
    have hmembers : (members.map Prod.fst).Nodup := hdistinct.1
    have hfind : ∀ key ∈ listed.map Prod.fst, ∃ found, (key, found) ∈ members := by
      intro key hkey
      obtain ⟨⟨_, found⟩, hfound, rfl⟩ := hrequired key hkey
      exact ⟨found, hfound⟩
    choose! found hfound using hfind
    have hexpected : (listed.map fun p => (p.1, found p.1)).map Prod.fst = listed.map Prod.fst := by
      simp [Function.comp_def]
    refine ⟨members, found, rfl, ?_, fun property hmem => ?_⟩
    · refine perm_of_keys hmembers (hexpected ▸ hnodup) (fun member hmem => ?_)
        fun member hmem => ?_
      · obtain ⟨property, hproperty, rfl⟩ := List.mem_map.mp hmem
        exact hfound property.1 (List.mem_map_of_mem hproperty)
      · exact hexpected ▸ hadditional member hmem
    · have hmember := hfound property.1 (List.mem_map_of_mem hmem)
      exact (hproperty hmem).mp (hproperties _ hmember)
  · rintro ⟨members, found, rfl, hperm, haccepts⟩
    refine ⟨members, rfl, fun member hmem => ?_, fun key hkey => ?_, fun member hmem => ?_⟩
    · obtain ⟨property, hlisted, rfl⟩ := List.mem_map.mp (hperm.mem_iff.mp hmem)
      exact (hproperty hlisted).mpr (haccepts property hlisted)
    · obtain ⟨property, hmem, rfl⟩ := List.mem_map.mp hkey
      exact ⟨_, hperm.mem_iff.mpr (List.mem_map_of_mem hmem), rfl⟩
    · obtain ⟨property, hlisted, rfl⟩ := List.mem_map.mp (hperm.mem_iff.mp hmem)
      exact List.mem_map_of_mem hlisted

theorem hasExactly_single {key : String} {doc : Document} :
    HasExactly reading [(key, doc)] value ↔
      ∃ payload, value = .object [(key, payload)] ∧ accepts reading doc payload := by
  constructor
  · rintro ⟨members, found, rfl, hperm, haccepts⟩
    rw [List.map_cons, List.map_nil, List.perm_singleton] at hperm
    exact ⟨found key, by rw [hperm], haccepts _ List.mem_cons_self⟩
  · rintro ⟨payload, rfl, haccepts⟩
    exact ⟨_, fun _ => payload, rfl, .refl _, by simpa using haccepts⟩

theorem hasExactly_pair {first second : String} (hne : first ≠ second) {doc more : Document} :
    HasExactly reading [(first, doc), (second, more)] value ↔
      ∃ members payload further, value = .object members ∧
        members.Perm [(first, payload), (second, further)] ∧ accepts reading doc payload ∧
          accepts reading more further := by
  constructor
  · rintro ⟨members, found, rfl, hperm, haccepts⟩
    refine ⟨members, found first, found second, rfl, hperm, haccepts _ List.mem_cons_self, ?_⟩
    exact haccepts _ (List.mem_cons_of_mem _ List.mem_cons_self)
  · rintro ⟨members, payload, further, rfl, hperm, hdoc, hmore⟩
    refine ⟨members, fun key => if key = first then payload else further, rfl, ?_, ?_⟩
    · simpa [hne.symm] using hperm
    · simpa [hne.symm] using ⟨hdoc, hmore⟩

structure IsPlainObject (schema : Document) : Prop where
  typed : IsTyped schema
  keys : schema.keys ⊆ ["type", "properties", "required", "additionalProperties"]
  type : ∀ spec, schema.get? "type" = some spec → spec = .str "object"
  required : ∀ name ∈ requiredOf schema, ∃ key, name = .str key ∧ (propertiesOf schema).has key

/-- Objects pass such a schema if they pass its three keywords about members. -/
theorem IsPlainObject.accepts_iff {schema : Document} (h : IsPlainObject schema)
    {members : List (String × Stored)} :
    accepts reading schema (.object members) ↔
      passes reading schema "properties" (.object members) ∧
        passes reading schema "required" (.object members) ∧
          passes reading schema "additionalProperties" (.object members) := by
  rw [accepts_iff_passes h.typed.nodup]
  constructor
  · exact fun hall => ⟨hall _, hall _, hall _⟩
  · rintro ⟨hproperties, hrequired, hadditional⟩ keyword
    by_cases hkeyword : keyword ∈ schema.keys
    · have hcases := h.keys hkeyword
      simp only [List.mem_cons, List.not_mem_nil, or_false] at hcases
      rcases hcases with rfl | rfl | rfl | rfl
      · obtain ⟨spec, hspec⟩ := Document.has_iff.mp (Document.has_eq_mem.mpr hkeyword)
        rw [passes_of_get? hspec, acceptsKeyword_type, h.type spec hspec]
        exact hasType_object.mpr ⟨members, rfl⟩
      · exact hproperties
      · exact hrequired
      · exact hadditional
    · refine passes_of_not_has ?_
      rw [Bool.eq_false_iff]
      exact fun hhas => hkeyword (Document.has_eq_mem.mp hhas)

section Beside

variable {tag : String} {members : List (String × Stored)}

theorem mem_beside {member : String × Stored} :
    member ∈ members.filter (·.1 ≠ tag) ↔ member ∈ members ∧ tag ≠ member.1 := by
  simp [ne_comm]

/-- One thing holds of the tagged member and another one of all the others. -/
theorem forall_beside_iff (hnodup : (members.map Prod.fst).Nodup) {held : Stored}
    (htag : (tag, held) ∈ members) {A : String × Stored → Prop} :
    (∀ member ∈ members, if tag = member.1 then member.2 = held else A member) ↔
      ∀ member ∈ members.filter (·.1 ≠ tag), A member := by
  constructor
  · intro hall member hmem
    obtain ⟨hmem, hne⟩ := mem_beside.mp hmem
    have hmember := hall member hmem
    rwa [if_neg hne] at hmember
  · intro hall member hmem
    split
    · next heq =>
      have hboth : (tag, member.2) ∈ members := heq ▸ hmem
      have hsame := (mem_iff_lookup hnodup).mp hboth
      rw [(mem_iff_lookup hnodup).mp htag] at hsame
      exact (Option.some.inj hsame).symm
    · next hne => exact hall member (mem_beside.mpr ⟨hmem, hne⟩)

theorem forall_further_iff {H A : String × Stored → Prop} :
    (∀ member ∈ members, (tag = member.1 ∨ H member) ∨ A member) ↔
      ∀ member ∈ members.filter (·.1 ≠ tag), H member ∨ A member := by
  constructor
  · intro hall member hmem
    obtain ⟨hmem, hne⟩ := mem_beside.mp hmem
    exact (hall member hmem).imp_left fun heither => heither.resolve_left hne
  · intro hall member hmem
    by_cases heq : tag = member.1
    · exact .inl (.inl heq)
    · exact (hall member (mem_beside.mpr ⟨hmem, heq⟩)).imp_left .inr

/-- Nothing that is required beside the tag is the tag. -/
theorem IsPlainObject.exists_beside_iff {schema : Document} (h : IsPlainObject schema)
    (hfree : (propertiesOf schema).has tag = false) {name : Json}
    (hname : name ∈ requiredOf schema) :
    (∃ member ∈ members, .str member.1 = name) ↔
      ∃ member ∈ members.filter (·.1 ≠ tag), .str member.1 = name := by
  constructor
  · rintro ⟨member, hmem, rfl⟩
    refine ⟨member, mem_beside.mpr ⟨hmem, ?_⟩, rfl⟩
    rintro rfl
    obtain ⟨key, hkey, hhas⟩ := h.required _ hname
    rw [← Json.str.inj hkey, hfree] at hhas
    cases hhas
  · rintro ⟨member, hmem, heq⟩
    exact ⟨member, (mem_beside.mp hmem).1, heq⟩

end Beside

/-- A payload beside a tag of which it says nothing accepts what it accepts without the tag. -/
theorem accepts_tagged_iff {schema : Document} (h : IsPlainObject schema) {tag key : String}
    (hfree : (propertiesOf schema).has tag = false) (hdistinct : value.KeysDistinct) :
    accepts reading (tagged tag key schema) value ↔ ∃ members, value = .object members ∧
      members.lookup tag = some (.text key) ∧
        accepts reading schema (.object (members.filter (·.1 ≠ tag))) := by
  rw [accepts_tagged, hasType_object]
  simp only [h.accepts_iff, passes_properties_iff h.typed, passes_required_iff h.typed,
    passes_additional_iff]
  constructor
  · rintro ⟨⟨members, rfl⟩, hrest⟩
    obtain ⟨hproperties, hrequired, hadditional⟩ := hrest members rfl
    obtain ⟨hpresent, hrequired⟩ := List.forall_mem_cons.mp hrequired
    have htag : (tag, .text key) ∈ members := by
      obtain ⟨⟨found, held⟩, hmem, heq⟩ := hpresent
      obtain rfl : found = tag := Json.str.inj heq
      have hheld := hproperties _ hmem
      rw [if_pos rfl] at hheld
      exact hheld ▸ hmem
    refine ⟨members, rfl, (mem_iff_lookup hdistinct.1).mp htag, ?_, fun name hname => ?_,
      fun argument hfound => ?_⟩
    · exact (forall_beside_iff hdistinct.1 htag).mp hproperties
    · exact (h.exists_beside_iff hfree hname).mp (hrequired name hname)
    · exact forall_further_iff.mp (hadditional argument hfound)
  · rintro ⟨members, rfl, htag, hproperties, hrequired, hadditional⟩
    have htag : (tag, .text key) ∈ members := (mem_iff_lookup hdistinct.1).mpr htag
    refine ⟨⟨members, rfl⟩, ?_⟩
    rintro _ ⟨⟩
    refine ⟨?_, List.forall_mem_cons.mpr ⟨⟨_, htag, rfl⟩, fun name hname => ?_⟩,
      fun argument hfound => ?_⟩
    · exact (forall_beside_iff hdistinct.1 htag).mpr hproperties
    · exact (h.exists_beside_iff hfree hname).mpr (hrequired name hname)
    · exact forall_further_iff.mpr (hadditional argument hfound)

/-- The schema that stands for a payload accepts what the payload holds. -/
theorem accepts_payload (key : String) (payload? : Option Document) (mergeable : Bool) :
    ∃ doc, EncodedVariant.payload ⟨key, payload?.map .obj, mergeable⟩ = .obj doc ∧
      ∀ reading value, accepts reading doc value ↔
        holdsPayload (payload?.map fun doc payload => accepts reading doc payload) value := by
  cases payload? with
  | none => exact ⟨_, rfl, fun reading value => accepts_absent⟩
  | some doc => exact ⟨doc, rfl, fun reading value => Iff.rfl⟩

section Conventions

variable {key tag place : String} {doc : Document} {holds : Stored → Prop}

theorem accepts_external (hholds : ∀ value, accepts reading doc value ↔ holds value)
    (hdistinct : value.KeysDistinct) :
    accepts reading (closedObject [(key, .obj doc)]) value ↔
      ∃ payload, value = .object [(key, payload)] ∧ holds payload := by
  refine (accepts_closedObject [(key, doc)] (by simp) hdistinct).trans ?_
  simp only [hasExactly_single, hholds]

theorem accepts_adjacent (hne : tag ≠ place)
    (hholds : ∀ value, accepts reading doc value ↔ holds value) (hdistinct : value.KeysDistinct) :
    accepts reading (closedObject [(tag, tagSchema key), (place, .obj doc)]) value ↔
      ∃ payload members, value = .object members ∧
        members.Perm [(tag, .text key), (place, payload)] ∧ holds payload := by
  refine (accepts_closedObject [(tag, [("enum", .arr [.str key])]), (place, doc)]
    (by simpa using hne) hdistinct).trans ?_
  rw [hasExactly_pair hne]
  simp only [accepts_tagSchema, hholds]
  constructor
  · rintro ⟨members, _, payload, hvalue, hperm, rfl, hpayload⟩
    exact ⟨payload, members, hvalue, hperm, hpayload⟩
  · rintro ⟨payload, members, hvalue, hperm, hpayload⟩
    exact ⟨members, _, payload, hvalue, hperm, rfl, hpayload⟩

/-- A tag without a payload beside it. -/
theorem accepts_tagOnly (hdistinct : value.KeysDistinct) :
    accepts reading (closedObject [(tag, tagSchema key)]) value ↔
      value = .object [(tag, .text key)] := by
  refine (accepts_closedObject [(tag, [("enum", .arr [.str key])])] (by simp) hdistinct).trans ?_
  simp only [hasExactly_single, accepts_tagSchema]
  constructor
  · rintro ⟨_, hvalue, rfl⟩
    exact hvalue
  · exact fun hvalue => ⟨_, hvalue, rfl⟩

/-- A payload can be put beside a tag of which it says nothing. -/
theorem mergeTag_eq_ok (hplain : IsPlainObject doc) {alternative : Document} :
    mergeTag tag key (.obj doc) = .ok alternative ↔
      (propertiesOf doc).has tag = false ∧ alternative = tagged tag key doc := by
  rw [mergeTag_of_isTyped hplain.typed]
  cases (propertiesOf doc).has tag with
  | true => simp
  | false => simp [eq_comm]

end Conventions

/-- The schema of an encoded variant accepts exactly its encodings, given the schema of its payload.
Beside a tag this takes that the payload says nothing but which properties it has. -/
theorem accepts_encode {tagging : Tagging} (hcheck : tagging.check = .ok ()) {key : String}
    {payload? : Option Document} {mergeable : Bool}
    (hplain : mergeable → ∀ doc, payload? = some doc → IsPlainObject doc) {alternative : Json}
    (hencode : tagging.encode ⟨key, payload?.map .obj, mergeable⟩ = .ok alternative) :
    ∃ schema, alternative = .obj schema ∧ ∀ reading value, value.KeysDistinct →
      (accepts reading schema value ↔
        tagging.IsEncoding key (payload?.map fun doc payload => accepts reading doc payload)
          value) := by
  obtain ⟨doc, hpayload, hholds⟩ := accepts_payload key payload? mergeable
  cases tagging with
  | external =>
    cases hencode
    rw [hpayload]
    exact ⟨_, rfl, fun reading value hdistinct => accepts_external (hholds reading) hdistinct⟩
  | adjacent tag place =>
    have hne : tag ≠ place := by
      rintro rfl
      rw [check, if_pos rfl] at hcheck
      split at hcheck <;> cases hcheck
    cases hencode
    rw [hpayload]
    exact ⟨_, rfl, fun reading value hdistinct => accepts_adjacent hne (hholds reading) hdistinct⟩
  | untagged =>
    cases hencode
    exact ⟨doc, hpayload, fun reading value _ => hholds reading value⟩
  | internal tag =>
    cases payload? with
    | none =>
      cases hencode
      exact ⟨_, rfl, fun reading value hdistinct => accepts_tagOnly hdistinct⟩
    | some schema =>
      cases mergeable with
      | false => cases hencode
      | true =>
        have hobject := hplain rfl schema rfl
        obtain ⟨merged, hmerge, hencode⟩ := bind_eq_ok.mp hencode
        obtain ⟨hfree, rfl⟩ := (mergeTag_eq_ok hobject).mp hmerge
        cases hencode
        exact ⟨_, rfl, fun reading value hdistinct => accepts_tagged_iff hobject hfree hdistinct⟩

end Schema
end ShapeSchema
