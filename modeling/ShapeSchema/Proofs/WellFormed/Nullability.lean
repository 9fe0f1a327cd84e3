import ShapeSchema.Proofs.Acceptance.Widening
import ShapeSchema.Proofs.WellFormed.Fragment

/-!
Which schemas accept null. Null passes all keywords but those that say what kind of value is meant
and those that list values, so that it hangs on one keyword of a schema in order whether null is
accepted, and it is after this keyword is widened.
-/

namespace ShapeSchema.Schema

variable {reading : Reading} {d e : Document} {keyword : String}

/-- Most keywords say nothing about null. -/
theorem passes_null (hkeyword : keyword ∉ ["type", "bsonType", "anyOf", "enum"]) :
    passes reading d keyword .null := by
  simp only [List.mem_cons, List.not_mem_nil, or_false, not_or] at hkeyword
  obtain ⟨htype, hbson, hany, henum⟩ := hkeyword
  have hplain : ∀ argument, acceptsPlain reading d keyword argument .null := by
    intro argument
    unfold acceptsPlain
    split <;> simp_all [acceptsCount, acceptsBound]
  unfold passes
  split
  · next argument _ =>
    cases argument <;> unfold acceptsKeyword <;> split <;> simp_all
  · rfl

/-- A schema that names another kind of value does not accept null. -/
theorem not_accepts_null (hnodup : d.keys.Nodup) {kind name : String}
    (hkind : kind = "type" ∨ kind = "bsonType") (hname : name ≠ "null")
    (hfound : d.get? kind = some (.str name)) : ¬ accepts reading d .null := by
  intro haccepts
  have hpasses := (accepts_iff_passes hnodup).mp haccepts kind
  rw [passes_of_get? hfound] at hpasses
  rcases hkind with rfl | rfl
  · rw [acceptsKeyword_type, hasType_str] at hpasses
    simp [Stored.typeNames, hname] at hpasses
  · rw [acceptsKeyword_bsonType, hasType_str] at hpasses
    simp [Stored.typeNames, hname] at hpasses

/-- At most one keyword of a schema in order can keep null out. -/
theorem IsFresh.kindKey?_of_not_passes (hd : IsFresh d)
    (hpasses : ¬ passes reading d keyword .null) : kindKey? d = some keyword := by
  have hhas : d.has keyword := by
    by_contra habsent
    exact hpasses (passes_of_not_has (Bool.eq_false_iff.mpr habsent))
  have hmem : keyword ∈ ["type", "bsonType", "anyOf"] := by
    by_contra hother
    apply hpasses
    by_cases henum : keyword = "enum"
    · subst henum
      simp [passes, hd.unlisted]
    · apply passes_null
      simp_all
  have hunique := (hd.wellFormed d (mem_subschemas_self d)).kindUnique
  simp only [List.filter_cons, List.filter_nil] at hunique
  simp only [List.mem_cons, List.not_mem_nil, or_false] at hmem
  rcases hmem with rfl | rfl | rfl
  · cases hbson : d.has "bsonType" <;> simp_all [kindKey?]
  · simp [kindKey?, hhas]
  · cases hbson : d.has "bsonType" <;> cases htype : d.has "type" <;> simp_all [kindKey?]

/-- A schema that is widened accepts null beside what it accepted before. -/
theorem IsFresh.accepts_widening (hd : IsFresh d) (h : IsWidening d e) {value : Stored} :
    accepts reading e value ↔ accepts reading d value ∨ value = .null := by
  rw [accepts_iff_passes h.typed.nodup, accepts_iff_passes hd.typed.nodup]
  constructor
  · intro haccepts
    by_cases hnull : value = .null
    · exact .inr hnull
    · refine .inl fun keyword => ?_
      exact (h.passes_iff.mp (haccepts keyword)).resolve_right fun hkind => hnull hkind.2
  · rintro (haccepts | rfl) keyword
    · exact h.passes_iff.mpr (.inl (haccepts keyword))
    · refine h.passes_iff.mpr ?_
      by_cases hpasses : passes reading d keyword .null
      · exact .inl hpasses
      · exact .inr ⟨hd.kindKey?_of_not_passes hpasses, rfl⟩

variable {c : Constraints}

/-- The keywords of bounds say nothing about null. -/
theorem accepts_bounded_null (hd : IsTyped d) :
    accepts reading (c.bounded d) .null ↔ accepts reading d .null := by
  rw [accepts_iff_passes (c.nodup_bounded hd.nodup), accepts_iff_passes hd.nodup]
  refine forall_congr' fun keyword => ?_
  by_cases hset : keyword ∈ boundKeys ∨ c.hasLowerBound ∧ keyword = "minimum"
  · have hkeyword : keyword ∉ ["type", "bsonType", "anyOf", "enum"] := by
      simp only [boundKeys, List.mem_cons, List.not_mem_nil, or_false] at hset
      rcases hset with (rfl | rfl | rfl) | ⟨_, rfl⟩ <;> simp
    exact iff_of_true (passes_null hkeyword) (passes_null hkeyword)
  · rw [passes_bounded_of_not_set hset]

/-- The same bounds keep null the only difference between a schema and what it is widened to. -/
theorem IsFresh.accepts_bounded_widening (hd : IsFresh d) (he : IsUnbounded e)
    (h : IsWidening d e) {value : Stored} :
    accepts reading (c.bounded e) value ↔ accepts reading (c.bounded d) value ∨ value = .null := by
  by_cases hnull : value = .null
  · subst hnull
    rw [accepts_bounded_null h.typed, hd.accepts_widening h]
    simp
  · rw [accepts_iff_passes (c.nodup_bounded h.typed.nodup),
      accepts_iff_passes (c.nodup_bounded hd.typed.nodup), or_iff_left hnull]
    refine forall_congr' fun keyword => ?_
    by_cases hset : keyword ∈ boundKeys ∨ c.hasLowerBound ∧ keyword = "minimum"
    · rw [passes_bounded_of_set he hd.unbounded hset]
    · rw [passes_bounded_of_not_set hset, passes_bounded_of_not_set hset, h.passes_iff]
      simp [hnull]

end ShapeSchema.Schema
