import Mathlib.Data.List.Forall2
import ShapeSchema.Proofs.Json.Members
import ShapeSchema.Schema.Acceptance

/-!
Acceptance keyword by keyword. A schema without repeated keywords accepts what passes each of them,
and whether a value passes a keyword hangs on its argument and on at most one other keyword. The
keywords that hold schemas accept no less if these accept no less.
-/

namespace ShapeSchema.Schema

/-- Whether a value passes what a schema says under a keyword, if anything. -/
def passes (reading : Reading) (schema : Document) (keyword : String) (value : Stored) : Bool :=
  match schema.get? keyword with
  | some argument => acceptsKeyword reading schema keyword argument value
  | none => true

/-- Whether all values that a schema accepts are accepted by another one. -/
def Within (d e : Document) : Prop :=
  ∀ reading value, accepts reading d value → accepts reading e value

theorem Within.refl (d : Document) : Within d d :=
  fun _ _ h => h

section Keywords

variable {reading : Reading} {d e : Document} {keyword : String} {argument : Json} {value : Stored}

theorem acceptsAll_iff {whole : Document} :
    acceptsAll reading whole d value ↔
      ∀ member ∈ d, acceptsKeyword reading whole member.1 member.2 value := by
  induction d with
  | nil => simp [acceptsAll]
  | cons head rest ih => simp [acceptsAll, ih]

theorem passes_of_get? (hfound : d.get? keyword = some argument) :
    passes reading d keyword value = acceptsKeyword reading d keyword argument value := by
  simp [passes, hfound]

theorem passes_of_not_has (habsent : d.has keyword = false) :
    passes reading d keyword value = true := by
  cases hfound : d.get? keyword with
  | none => simp [passes, hfound]
  | some argument =>
    have hhas := Document.has_iff.mpr ⟨argument, hfound⟩
    simp [habsent] at hhas

theorem accepts_iff_passes (hnodup : d.keys.Nodup) :
    accepts reading d value ↔ ∀ keyword, passes reading d keyword value := by
  rw [accepts, acceptsAll_iff]
  constructor
  · intro h keyword
    cases hfound : d.get? keyword with
    | none => simp [passes, hfound]
    | some argument =>
      rw [passes_of_get? hfound]
      exact h _ (Document.mem_of_get? hfound)
  · rintro h ⟨keyword, argument⟩ hmem
    rw [← passes_of_get? (Document.get?_of_mem hnodup hmem)]
    exact h keyword

/-- The other keyword that a keyword looks at. -/
def beside : String → List String
  | "additionalProperties" => ["properties"]
  | "additionalItems" => ["items"]
  | "minimum" => ["exclusiveMinimum"]
  | "maximum" => ["exclusiveMaximum"]
  | _ => []

theorem propertiesOf_congr (h : d.get? "properties" = e.get? "properties") :
    Tagging.propertiesOf d = Tagging.propertiesOf e := by
  simp [Tagging.propertiesOf, Tagging.propertiesPart, Json.member?, h]

theorem propertiesOf_of_get? {properties : Document}
    (hfound : d.get? "properties" = some (.obj properties)) :
    Tagging.propertiesOf d = properties := by
  simp [Tagging.propertiesOf, Tagging.propertiesPart, Json.member?, hfound]

theorem propertiesOf_of_none (hfound : d.get? "properties" = none) :
    Tagging.propertiesOf d = [] := by
  simp [Tagging.propertiesOf, Tagging.propertiesPart, Json.member?, hfound]

theorem acceptsPlain_congr (hbeside : ∀ key ∈ beside keyword, d.get? key = e.get? key) :
    acceptsPlain reading d keyword argument value =
      acceptsPlain reading e keyword argument value := by
  have hcount : keyword = "additionalItems" → positionCount d = positionCount e := by
    rintro rfl
    rw [positionCount, positionCount, hbeside "items" (by simp [beside])]
  unfold acceptsPlain
  split <;> simp_all [beside, flag]

theorem acceptsKeyword_congr (hbeside : ∀ key ∈ beside keyword, d.get? key = e.get? key) :
    acceptsKeyword reading d keyword argument value =
      acceptsKeyword reading e keyword argument value := by
  have hplain : ∀ argument value, acceptsPlain reading d keyword argument value =
      acceptsPlain reading e keyword argument value := fun _ _ => acceptsPlain_congr hbeside
  have hlisted : keyword = "additionalProperties" →
      Tagging.propertiesOf d = Tagging.propertiesOf e := by
    rintro rfl
    exact propertiesOf_congr (hbeside "properties" (by simp [beside]))
  unfold acceptsKeyword
  split
  · split <;> simp_all
  · split <;> simp_all
  · split <;> simp_all

theorem passes_congr (hsame : d.get? keyword = e.get? keyword)
    (hbeside : ∀ key ∈ beside keyword, d.get? key = e.get? key) :
    passes reading d keyword value = passes reading e keyword value := by
  unfold passes
  rw [hsame]
  split
  · exact acceptsKeyword_congr hbeside
  · rfl

end Keywords

def acceptsFurther (reading : Reading) : Json → Stored → Bool
  | .obj schema, value => accepts reading schema value
  | .arr _, _ => true
  | argument, _ => argument ≠ .bool false

section Arguments

variable {reading : Reading} {whole : Document} {value : Stored}

attribute [local simp] acceptsKeyword acceptsPlain

theorem acceptsKeyword_items {inner : Document} :
    acceptsKeyword reading whole "items" (.obj inner) value ↔
      ∀ items, value = .array items → ∀ item ∈ items, accepts reading inner item := by
  cases value <;> simp [accepts]

theorem acceptsKeyword_positions {schemas : List Json} :
    acceptsKeyword reading whole "items" (.arr schemas) value ↔
      ∀ items, value = .array items → acceptsPositions reading schemas items := by
  cases value <;> simp

theorem acceptsKeyword_properties {properties : Document} :
    acceptsKeyword reading whole "properties" (.obj properties) value ↔
      ∀ members, value = .object members →
        ∀ member ∈ members, acceptsProperty reading member.1 properties member.2 := by
  cases value <;> simp

theorem acceptsKeyword_additional {argument : Json} :
    acceptsKeyword reading whole "additionalProperties" argument value ↔
      ∀ members, value = .object members → ∀ member ∈ members,
        (Tagging.propertiesOf whole).has member.1 ∨ acceptsFurther reading argument member.2 := by
  cases argument <;> cases value <;>
    simp [acceptsFurther, accepts]

theorem acceptsKeyword_required {keys : List Json} :
    acceptsKeyword reading whole "required" (.arr keys) value ↔
      ∀ members, value = .object members →
        ∀ key ∈ keys, ∃ member ∈ members, .str member.1 = key := by
  cases value <;> simp

theorem acceptsKeyword_anyOf {alternatives : List Json} :
    acceptsKeyword reading whole "anyOf" (.arr alternatives) value =
      acceptsSome reading alternatives value := by
  cases value <;> simp

theorem acceptsKeyword_type {spec : Json} :
    acceptsKeyword reading whole "type" spec value = hasType value spec := by
  cases spec <;> cases value <;> simp

theorem acceptsKeyword_bsonType {spec : Json} :
    acceptsKeyword reading whole "bsonType" spec value = hasType value spec := by
  cases spec <;> cases value <;> simp

end Arguments

inductive HeldWithin : Json → Json → Prop
  | intro {d e : Document} (within : Within d e) : HeldWithin (.obj d) (.obj e)

def PropertyWithin (x y : String × Json) : Prop :=
  x.1 = y.1 ∧ HeldWithin x.2 y.2

section Monotone

variable {reading : Reading}

theorem acceptsSome_mono {xs ys : List Json} (h : List.Forall₂ HeldWithin xs ys) {value : Stored}
    (hsome : acceptsSome reading xs value) : acceptsSome reading ys value := by
  induction h with
  | nil => simp [acceptsSome] at hsome
  | cons hhead _ ih =>
    cases hhead with
    | intro hwithin =>
      simp only [acceptsSome, Bool.or_eq_true] at hsome ⊢
      exact hsome.imp (hwithin reading value) ih

theorem acceptsPositions_mono {xs ys : List Json} (h : List.Forall₂ HeldWithin xs ys)
    {items : List Stored} (hall : acceptsPositions reading xs items) :
    acceptsPositions reading ys items := by
  induction h generalizing items with
  | nil => simp [acceptsPositions]
  | cons hhead _ ih =>
    cases hhead with
    | intro hwithin =>
      cases items with
      | nil => simp [acceptsPositions]
      | cons item rest =>
        simp only [acceptsPositions, Bool.and_eq_true] at hall ⊢
        exact ⟨hwithin reading item hall.1, ih hall.2⟩

theorem acceptsProperty_mono {ps qs : Document} (h : List.Forall₂ PropertyWithin ps qs)
    {key : String} {value : Stored} (hproperty : acceptsProperty reading key ps value) :
    acceptsProperty reading key qs value := by
  induction h with
  | nil => simp [acceptsProperty]
  | @cons x y _ _ hhead _ ih =>
    obtain ⟨name, argument⟩ := x
    obtain ⟨_, other⟩ := y
    obtain ⟨rfl, hheld⟩ := hhead
    cases hheld with
    | intro hwithin =>
      simp only [acceptsProperty] at hproperty ⊢
      split
      · next heq =>
        rw [if_pos heq] at hproperty
        exact hwithin reading value hproperty
      · next hne =>
        rw [if_neg hne] at hproperty
        exact ih hproperty

theorem keys_eq_of_forall₂ {R : String × Json → String × Json → Prop}
    (hR : ∀ {x y}, R x y → x.1 = y.1) {ps qs : Document} (h : List.Forall₂ R ps qs) :
    ps.keys = qs.keys := by
  induction h with
  | nil => rfl
  | cons hhead _ ih => simpa [Document.keys, hR hhead] using ih

end Monotone

end ShapeSchema.Schema
