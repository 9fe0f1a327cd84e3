import ShapeSchema.Proofs.Acceptance.Tightening

/-!
Adding null to a schema. One keyword at most says what kind of value is meant; null joins what
passes it, and all other keywords stay.
-/

namespace ShapeSchema

theorem Stored.null_mem_typeNames {value : Stored} : "null" ∈ value.typeNames ↔ value = .null := by
  cases value with
  | number storage _ => cases storage <;> simp [typeNames]
  | _ => simp [typeNames]

namespace Schema

theorem hasType_str {value : Stored} {name : String} :
    hasType value (.str name) ↔ name ∈ value.typeNames := by
  simp [hasType]

theorem hasType_arr {value : Stored} {names : List Json} :
    hasType value (.arr names) ↔ ∃ name, .str name ∈ names ∧ name ∈ value.typeNames := by
  simp only [hasType, List.any_eq_true]
  constructor
  · rintro ⟨spec, hmem, hname⟩
    cases spec <;> simp at hname
    exact ⟨_, hmem, hname⟩
  · rintro ⟨name, hmem, hname⟩
    exact ⟨_, hmem, by simpa using hname⟩

/-- A type specification with null added is passed by null as well. -/
theorem withNull_of_hasForm {keyword : String} (hkeyword : keyword ∈ ["bsonType", "type"])
    {spec : Json} (hform : hasForm keyword spec) :
    ∃ widened, withNull spec = .ok widened ∧ hasForm keyword widened ∧
      ∀ value, hasType value widened ↔ hasType value spec ∨ value = .null := by
  have hlist : hasForm keyword (.arr []) := by
    rcases List.mem_pair.mp hkeyword with rfl | rfl <;> rfl
  cases spec with
  | str name =>
    by_cases hnull : name = "null"
    · subst hnull
      refine ⟨_, rfl, hform, fun value => ?_⟩
      simp [hasType_str, Stored.null_mem_typeNames]
    · refine ⟨_, rfl, by rw [if_neg hnull]; exact hlist, fun value => ?_⟩
      simp [hnull, hasType_str, hasType_arr, Stored.null_mem_typeNames]
  | arr names =>
    by_cases hnull : .str "null" ∈ names
    · refine ⟨_, rfl, by rw [if_pos hnull]; exact hform, fun value => ?_⟩
      rw [if_pos hnull]
      refine ⟨.inl, fun h => h.elim id fun heq => ?_⟩
      exact hasType_arr.mpr ⟨"null", hnull, Stored.null_mem_typeNames.mpr heq⟩
    · refine ⟨_, rfl, by rw [if_neg hnull]; exact hlist, fun value => ?_⟩
      simp only [if_neg hnull, hasType_arr, List.mem_append, List.mem_singleton, Json.str.injEq,
        ← Stored.null_mem_typeNames]
      constructor
      · rintro ⟨name, hmem | rfl, hname⟩
        · exact .inl ⟨name, hmem, hname⟩
        · exact .inr hname
      · rintro (⟨name, hmem, hname⟩ | hname)
        · exact ⟨name, .inl hmem, hname⟩
        · exact ⟨"null", .inr rfl, hname⟩
  | _ => rcases List.mem_pair.mp hkeyword with rfl | rfl <;> simp [hasForm] at hform

theorem acceptsSome_iff {reading : Reading} {alternatives : List Json} {value : Stored} :
    acceptsSome reading alternatives value ↔
      ∃ schema, .obj schema ∈ alternatives ∧ accepts reading schema value := by
  induction alternatives with
  | nil => simp [acceptsSome]
  | cons head rest ih => cases head <;> simp [acceptsSome, ih, accepts]

theorem accepts_nullOnly {reading : Reading} {value : Stored} :
    accepts reading [("type", .str "null")] value ↔ value = .null := by
  rw [accepts, acceptsAll_iff]
  simp [acceptsKeyword_type, hasType_str, Stored.null_mem_typeNames]

/-- The keyword that says what kind of value is meant. -/
def kindKey? (schema : Document) : Option String :=
  ["bsonType", "type", "anyOf"].find? (schema.has ·)

theorem mem_of_kindKey? {d : Document} {keyword : String} (hkind : kindKey? d = some keyword) :
    keyword ∈ ["bsonType", "type", "anyOf"] :=
  List.mem_of_find?_eq_some hkind

theorem has_of_kindKey? {d : Document} {keyword : String} (hkind : kindKey? d = some keyword) :
    d.has keyword := by
  have h := List.find?_some hkind
  exact h

/-- What says more has the same keyword for the kind, if the other one has it at all. -/
theorem kindKey?_of_has {d e : Document} (hkeys : ∀ {keyword}, e.has keyword → d.has keyword)
    {keyword : String} (hkind : kindKey? d = some keyword) (hhas : e.has keyword) :
    kindKey? e = some keyword := by
  obtain ⟨_, before, after, hlist, hbefore⟩ := List.find?_eq_some_iff_append.mp hkind
  refine List.find?_eq_some_iff_append.mpr ⟨hhas, before, after, hlist, fun key hmem => ?_⟩
  have habsent := hbefore key hmem
  cases hkey : e.has key with
  | false => rfl
  | true => simp [hkeys hkey] at habsent

structure IsWidening (d widened : Document) : Prop where
  typed : IsTyped widened
  other : ∀ {keyword}, kindKey? d ≠ some keyword → widened.get? keyword = d.get? keyword
  kind : ∀ {keyword}, kindKey? d = some keyword → widened.has keyword ∧ ∀ reading value,
    passes reading widened keyword value ↔ passes reading d keyword value ∨ value = .null

theorem IsWidening.self {d : Document} (hd : IsTyped d) (hnull : ∀ {keyword},
    kindKey? d = some keyword → ∀ reading, passes reading d keyword .null) : IsWidening d d where
  typed := hd
  other _ := rfl
  kind {keyword} hkind := by
    refine ⟨has_of_kindKey? hkind, fun reading value => ⟨.inl, ?_⟩⟩
    rintro (h | rfl)
    · exact h
    · exact hnull hkind reading

theorem IsWidening.of_put {d : Document} (hd : IsTyped d) {keyword : String}
    (hkind : kindKey? d = some keyword) {argument widened : Json}
    (hfound : d.get? keyword = some argument) (hform : hasForm keyword widened)
    (hnull : ∀ reading value, acceptsKeyword reading (d.put keyword widened) keyword widened value ↔
      acceptsKeyword reading d keyword argument value ∨ value = .null) :
    IsWidening d (d.put keyword widened) where
  typed := hd.put hform
  other {sought} hother := by
    refine Document.get?_put_of_ne (fun heq => ?_) widened d
    exact hother (heq ▸ hkind)
  kind {sought} hsought := by
    rw [hkind] at hsought
    cases hsought
    have hput : (d.put keyword widened).get? keyword = some widened := by
      rw [Document.get?_put, if_pos rfl]
    refine ⟨Document.has_iff.mpr ⟨widened, hput⟩, fun reading value => ?_⟩
    rw [passes_of_get? hput, passes_of_get? hfound]
    exact hnull reading value

theorem acceptsSome_of_nullOnly {reading : Reading} {alternatives : List Json}
    (hmem : nullOnly ∈ alternatives) : acceptsSome reading alternatives .null :=
  acceptsSome_iff.mpr ⟨_, hmem, accepts_nullOnly.mpr rfl⟩

theorem acceptsSome_append_nullOnly {reading : Reading} {alternatives : List Json}
    {value : Stored} :
    acceptsSome reading (alternatives ++ [nullOnly]) value ↔
      acceptsSome reading alternatives value ∨ value = .null := by
  rw [acceptsSome_iff, acceptsSome_iff]
  constructor
  · rintro ⟨schema, hmem, haccepts⟩
    rcases List.mem_append.mp hmem with hmem | hmem
    · exact .inl ⟨schema, hmem, haccepts⟩
    · cases List.mem_singleton.mp hmem
      exact .inr (accepts_nullOnly.mp haccepts)
  · rintro (⟨schema, hmem, haccepts⟩ | hnull)
    · exact ⟨schema, List.mem_append_left _ hmem, haccepts⟩
    · exact ⟨_, List.mem_append_right _ List.mem_cons_self, accepts_nullOnly.mpr hnull⟩

theorem has_eq_isSome (d : Document) (keyword : String) :
    d.has keyword = (d.get? keyword).isSome := by
  rw [Bool.eq_iff_iff, Document.has_iff, Option.isSome_iff_exists]

/-- A union gets an alternative for null, unless it has one. -/
theorem widenNullable_of_anyOf {d : Document} (hbson : d.get? "bsonType" = none)
    (htype : d.get? "type" = none) {alternatives : List Json}
    (hany : d.get? "anyOf" = some (.arr alternatives)) :
    widenNullable d = .ok (if nullOnly ∈ alternatives then d
      else d.put "anyOf" (.arr (alternatives ++ [nullOnly]))) := by
  unfold widenNullable
  simp only [hbson, htype, hany, Json.holds, Json.items]
  by_cases hmem : nullOnly ∈ alternatives
  · simp [hmem, bind, Except.bind, pure, Except.pure]
  · simp [hmem, bind, Except.bind, pure, Except.pure]

/-- A typed schema can be widened, and null joins what passes one keyword of it. -/
theorem widenNullable_of_isTyped {d : Document} (hd : IsTyped d) :
    ∃ widened, widenNullable d = .ok widened ∧ IsWidening d widened := by
  cases hbson : d.get? "bsonType" with
  | some spec =>
    have hkind : kindKey? d = some "bsonType" := by simp [kindKey?, has_eq_isSome, hbson]
    obtain ⟨widened, hok, hform, hnull⟩ := withNull_of_hasForm (by simp) (hd.form hbson)
    refine ⟨d.put "bsonType" widened, by simp [widenNullable, hbson, hok, Except.map],
      .of_put hd hkind hbson hform ?_⟩
    intro reading value
    rw [acceptsKeyword_bsonType, acceptsKeyword_bsonType]
    exact hnull value
  | none =>
    cases htype : d.get? "type" with
    | some spec =>
      have hkind : kindKey? d = some "type" := by simp [kindKey?, has_eq_isSome, hbson, htype]
      obtain ⟨widened, hok, hform, hnull⟩ := withNull_of_hasForm (by simp) (hd.form htype)
      refine ⟨d.put "type" widened, by simp [widenNullable, hbson, htype, hok, Except.map],
        .of_put hd hkind htype hform ?_⟩
      intro reading value
      rw [acceptsKeyword_type, acceptsKeyword_type]
      exact hnull value
    | none =>
      cases hany : d.get? "anyOf" with
      | none =>
        have hkind : kindKey? d = none := by simp [kindKey?, has_eq_isSome, hbson, htype, hany]
        exact ⟨d, by simp [widenNullable, hbson, htype, hany], .self hd (by simp [hkind])⟩
      | some argument =>
        have hkind : kindKey? d = some "anyOf" := by
          simp [kindKey?, has_eq_isSome, hbson, htype, hany]
        cases argument with
        | arr alternatives =>
          refine ⟨_, widenNullable_of_anyOf hbson htype hany, ?_⟩
          split
          · next hmem =>
            refine .self hd fun {keyword} h reading => ?_
            cases hkind.symm.trans h
            rw [passes_of_get? hany, acceptsKeyword_anyOf]
            exact acceptsSome_of_nullOnly hmem
          · refine .of_put hd hkind hany rfl fun reading value => ?_
            rw [acceptsKeyword_anyOf, acceptsKeyword_anyOf]
            exact acceptsSome_append_nullOnly
        | _ => simpa [hasForm] using hd.form hany

/-- Null passes the keyword that says what kind of value is meant; else nothing changes. -/
theorem IsWidening.passes_iff {d widened : Document} (h : IsWidening d widened)
    {reading : Reading} {keyword : String} {value : Stored} :
    passes reading widened keyword value ↔
      passes reading d keyword value ∨ kindKey? d = some keyword ∧ value = .null := by
  by_cases hkind : kindKey? d = some keyword
  · rw [(h.kind hkind).2 reading value]
    simp [hkind]
  · have hsame : passes reading widened keyword value = passes reading d keyword value := by
      refine passes_congr (h.other hkind) fun key hkey => h.other fun hother => ?_
      have hmem := mem_of_kindKey? hother
      unfold beside at hkey
      split at hkey <;> simp_all
    simp [hsame, hkind]

theorem IsWidening.has_iff {d widened : Document} (h : IsWidening d widened) {keyword : String} :
    widened.has keyword ↔ d.has keyword := by
  by_cases hkind : kindKey? d = some keyword
  · exact ⟨fun _ => has_of_kindKey? hkind, fun _ => (h.kind hkind).1⟩
  · rw [has_eq_isSome, has_eq_isSome, h.other hkind]

theorem IsWidening.propertiesOf_eq {d widened : Document} (h : IsWidening d widened) :
    Tagging.propertiesOf widened = Tagging.propertiesOf d :=
  propertiesOf_congr (h.other fun hkind => by simpa using mem_of_kindKey? hkind)

/-- Adding null keeps what is said at least as much. -/
theorem Tightens.widened {d e d' e' : Document} (h : Tightens d e) (hd : IsWidening d d')
    (he : IsWidening e e') : Tightens d' e' where
  left := hd.typed
  right := he.typed
  keys hhas := hd.has_iff.mpr (h.keys (he.has_iff.mp hhas))
  properties hhas := by
    rw [he.propertiesOf_eq] at hhas
    rw [hd.propertiesOf_eq]
    exact h.properties hhas
  passes {reading keyword value} hpasses := by
    rw [he.passes_iff]
    rcases hd.passes_iff.mp hpasses with hpasses | ⟨hkind, rfl⟩
    · exact .inl (h.passes hpasses)
    · cases hhas : e.has keyword with
      | false => exact .inl (passes_of_not_has hhas)
      | true => exact .inr ⟨kindKey?_of_has h.keys hkind hhas, rfl⟩

end Schema
end ShapeSchema
