import ShapeSchema.Constraints
import ShapeSchema.Proofs.Acceptance.Tightening

/-!
Setting the bounds of a number. They take the place of those that a schema has already, so that they
are the same whatever the schema said before.
-/

namespace ShapeSchema

namespace Constraints

/-- The schema with the bounds of the constraints; a lower bound takes the place of the implicit
one. -/
def bounded (c : Constraints) (doc : Document) : Document :=
  (if c.hasLowerBound then (doc.remove "minimum").remove "exclusiveMinimum" else doc).update
    c.boundKeywords

variable {c : Constraints}

theorem Limit.get?_keywords_of_ne (limit : Limit) {key bound exclusive : String}
    (hbound : key ≠ bound) (hexclusive : key ≠ exclusive) :
    (limit.keywords bound exclusive).get? key = .none := by
  cases h : limit.exclusive <;> simp [keywords, Document.get?_cons, h, hbound, hexclusive]

theorem get?_boundKeywords_of_ne {key : String} (hlower : c.hasLowerBound = false ∨
    key ≠ "minimum" ∧ key ≠ "exclusiveMinimum") (hmaximum : key ≠ "maximum")
    (hexclusive : key ≠ "exclusiveMaximum") : c.boundKeywords.get? key = .none := by
  unfold boundKeywords
  rw [Document.get?_append, Option.or_eq_none_iff]
  constructor
  · rcases hlower with hlower | ⟨hminimum, hexclusive⟩
    · simp only [hasLowerBound, Bool.or_eq_false_iff, Option.isSome_eq_false_iff,
        Option.isNone_iff_eq_none] at hlower
      simp [lower?, hlower]
    · cases c.lower? with
      | none => rfl
      | some limit => exact limit.get?_keywords_of_ne hminimum hexclusive
  · cases c.upper? with
    | none => rfl
    | some limit => exact limit.get?_keywords_of_ne hmaximum hexclusive

theorem nodup_boundKeywords : c.boundKeywords.keys.Nodup := by
  unfold boundKeywords
  cases c.lower? with
  | none =>
    cases c.upper? with
    | none => simp [Document.keys]
    | some upper => cases h : upper.exclusive <;> simp [Limit.keywords, Document.keys, h]
  | some lower =>
    cases c.upper? with
    | none => cases h : lower.exclusive <;> simp [Limit.keywords, Document.keys, h]
    | some upper =>
      cases h : lower.exclusive <;> cases h' : upper.exclusive <;>
        simp [Limit.keywords, Document.keys, h, h']

theorem get?_bounded (c : Constraints) (doc : Document) (key : String) :
    (c.bounded doc).get? key = (c.boundKeywords.get? key).or
      (if c.hasLowerBound ∧ (key = "minimum" ∨ key = "exclusiveMinimum") then .none
        else doc.get? key) := by
  unfold bounded
  rw [Document.get?_update key _ nodup_boundKeywords]
  congr 1
  cases c.hasLowerBound with
  | false => simp
  | true =>
    simp only [if_true, Document.get?_remove]
    by_cases h : key = "minimum" <;> by_cases h' : key = "exclusiveMinimum" <;> simp [h, h']

theorem nodup_bounded (c : Constraints) {doc : Document} (hnodup : doc.keys.Nodup) :
    (c.bounded doc).keys.Nodup := by
  refine Document.nodup_keys_update ?_ _
  split
  · exact Document.nodup_keys_remove (Document.nodup_keys_remove hnodup _) _
  · exact hnodup

end Constraints

namespace Schema

def boundKeys : List String :=
  ["exclusiveMinimum", "maximum", "exclusiveMaximum"]

/-- Whether no bound is set but perhaps the least value of unsigned numbers. -/
def IsUnbounded (schema : Document) : Prop :=
  ∀ key ∈ boundKeys, schema.get? key = none

theorem IsUnbounded.of_keys {schema : Document} (h : ∀ key ∈ boundKeys, key ∉ schema.keys) :
    IsUnbounded schema :=
  fun key hmem => Document.get?_eq_none (h key hmem)

theorem Tightens.isUnbounded {d e : Document} (h : Tightens d e) (hd : IsUnbounded d) :
    IsUnbounded e := by
  intro key hmem
  cases hfound : e.get? key with
  | none => rfl
  | some argument =>
    obtain ⟨given, hgiven⟩ := Document.has_iff.mp (h.keys (Document.has_iff.mpr ⟨argument, hfound⟩))
    rw [hd key hmem] at hgiven
    cases hgiven

theorem hasForm_of_not_mem {keyword : String}
    (hkeyword : keyword ∉ ["type", "bsonType", "anyOf", "required", "properties"])
    (argument : Json) : hasForm keyword argument := by
  cases argument <;> simp_all [hasForm]

variable {d e : Document} {c : Constraints}

theorem get?_bounded_of_ne {key : String} (hlower : c.hasLowerBound = false ∨
    key ≠ "minimum" ∧ key ≠ "exclusiveMinimum") (hmaximum : key ≠ "maximum")
    (hexclusive : key ≠ "exclusiveMaximum") : (c.bounded d).get? key = d.get? key := by
  rw [Constraints.get?_bounded,
    Constraints.get?_boundKeywords_of_ne hlower hmaximum hexclusive, Option.none_or, if_neg]
  rintro ⟨hset, hkey⟩
  rcases hlower with hunset | ⟨hminimum, hexclusive⟩
  · simp [hunset] at hset
  · exact hkey.elim hminimum hexclusive

/-- The bounds that constraints set are the same in all schemas without bounds. -/
theorem get?_bounded_eq {key : String} (hd : IsUnbounded d) (he : IsUnbounded e)
    (hkey : key ∈ boundKeys ∨ c.hasLowerBound ∧ key = "minimum") :
    (c.bounded d).get? key = (c.bounded e).get? key := by
  rw [Constraints.get?_bounded, Constraints.get?_bounded]
  rcases hkey with hkey | ⟨hlower, rfl⟩
  · rw [hd key hkey, he key hkey]
  · simp [hlower]

theorem IsTyped.bounded (hd : IsTyped d) (c : Constraints) : IsTyped (c.bounded d) where
  nodup := c.nodup_bounded hd.nodup
  form {keyword argument} hfound := by
    by_cases hspecial : keyword ∈ ["type", "bsonType", "anyOf", "required", "properties"]
    · have hne : ∀ key ∈ "minimum" :: boundKeys, keyword ≠ key := by
        rintro key hkey rfl
        simp only [boundKeys, List.mem_cons, List.not_mem_nil, or_false] at hkey
        rcases hkey with rfl | rfl | rfl | rfl <;> simp at hspecial
      rw [get?_bounded_of_ne (.inr ⟨hne _ (by simp), hne _ (by simp [boundKeys])⟩)
        (hne _ (by simp [boundKeys])) (hne _ (by simp [boundKeys]))] at hfound
      exact hd.form hfound
    · exact hasForm_of_not_mem hspecial argument

theorem propertiesOf_bounded : Tagging.propertiesOf (c.bounded d) = Tagging.propertiesOf d :=
  propertiesOf_congr (get?_bounded_of_ne (.inr (by simp)) (by simp) (by simp))

variable {reading : Reading} {keyword : String} {value : Stored}

/-- A bound that constraints set passes the same values in all schemas without bounds. -/
theorem passes_bounded_of_set (hd : IsUnbounded d) (he : IsUnbounded e)
    (hset : keyword ∈ boundKeys ∨ c.hasLowerBound ∧ keyword = "minimum") :
    Schema.passes reading (c.bounded d) keyword value =
      Schema.passes reading (c.bounded e) keyword value := by
  refine passes_congr (get?_bounded_eq hd he hset) fun key hkey => get?_bounded_eq hd he (.inl ?_)
  rcases hset with hset | ⟨_, rfl⟩
  · simp only [boundKeys, List.mem_cons, List.not_mem_nil, or_false] at hset
    rcases hset with rfl | rfl | rfl <;> simp [beside] at hkey
    simp [boundKeys, hkey]
  · simp [boundKeys, List.mem_singleton.mp hkey]

/-- A keyword that constraints leave alone passes the same values as before. -/
theorem passes_bounded_of_not_set
    (hset : ¬ (keyword ∈ boundKeys ∨ c.hasLowerBound ∧ keyword = "minimum")) :
    Schema.passes reading (c.bounded d) keyword value = Schema.passes reading d keyword value := by
  simp only [boundKeys, List.mem_cons, List.not_mem_nil, or_false, not_or, not_and] at hset
  obtain ⟨⟨hexclusive, hmaximum, hexclusive'⟩, hminimum⟩ := hset
  have hlower : c.hasLowerBound = false ∨ keyword ≠ "minimum" ∧ keyword ≠ "exclusiveMinimum" := by
    cases hlower : c.hasLowerBound with
    | false => exact .inl rfl
    | true => exact .inr ⟨hminimum hlower, hexclusive⟩
  refine passes_congr (get?_bounded_of_ne hlower hmaximum hexclusive') fun key hkey => ?_
  unfold beside at hkey
  split at hkey
  · rw [List.mem_singleton.mp hkey]
    exact get?_bounded_of_ne (.inr (by simp)) (by simp) (by simp)
  · rw [List.mem_singleton.mp hkey]
    exact get?_bounded_of_ne (.inr (by simp)) (by simp) (by simp)
  · rw [List.mem_singleton.mp hkey]
    exact get?_bounded_of_ne (.inl (by simpa using hlower)) (by simp) (by simp)
  · exact absurd rfl hmaximum
  · cases hkey

theorem Tightens.bounded (h : Tightens d e) (hd : IsUnbounded d) (c : Constraints) :
    Tightens (c.bounded d) (c.bounded e) where
  left := h.left.bounded c
  right := h.right.bounded c
  keys {keyword} hhas := by
    obtain ⟨argument, hfound⟩ := Document.has_iff.mp hhas
    rw [Constraints.get?_bounded, Option.or_eq_some_iff] at hfound
    refine Document.has_iff.mpr ?_
    rw [Constraints.get?_bounded]
    rcases hfound with hfound | ⟨hnone, hfound⟩
    · exact ⟨argument, by rw [hfound]; rfl⟩
    · rw [hnone, Option.none_or]
      split at hfound
      · cases hfound
      · next hguard =>
        rw [if_neg hguard]
        exact Document.has_iff.mp (h.keys (Document.has_iff.mpr ⟨argument, hfound⟩))
  properties {key} hhas := by
    rw [propertiesOf_bounded] at hhas ⊢
    exact h.properties hhas
  passes {reading keyword value} hpasses := by
    by_cases hset : keyword ∈ boundKeys ∨ c.hasLowerBound ∧ keyword = "minimum"
    · rw [← passes_bounded_of_set hd (h.isUnbounded hd) hset]
      exact hpasses
    · rw [passes_bounded_of_not_set hset] at hpasses ⊢
      exact h.passes hpasses

/-- What the rules of a derivation keep of two schemas: the first one says at least as much, and
neither has bounds that only constraints set. -/
structure Outdoes (d e : Document) : Prop where
  tightens : Tightens d e
  unbounded : IsUnbounded d

theorem Outdoes.within (h : Outdoes d e) : Within d e :=
  h.tightens.within

theorem Outdoes.refl (hd : IsTyped d) (hkeys : ∀ key ∈ boundKeys, key ∉ d.keys) : Outdoes d d :=
  ⟨.refl hd, .of_keys hkeys⟩

end Schema
end ShapeSchema
