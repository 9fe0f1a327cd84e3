import ShapeSchema.Proofs.Acceptance.Bounds
import ShapeSchema.Proofs.Constraints.Check

/-!
The range of a schema once bounds are set. A bound that is set takes the place of the end that the
schema had, flag and all; an end that is not set stays as it was.
-/

namespace ShapeSchema

namespace Constraints

variable {c : Constraints} {d : Document}

theorem Limit.get?_keywords (limit : Limit) {bound exclusive : String} (hne : bound ≠ exclusive) :
    (limit.keywords bound exclusive).get? bound = some limit.value ∧
      (limit.keywords bound exclusive).get? exclusive =
        if limit.exclusive then some (.bool true) else .none := by
  cases h : limit.exclusive <;> simp [keywords, Document.get?_cons, h, hne.symm]

theorem get?_keywords_of_option (limit? : Option Limit) (key bound exclusive : String) :
    Document.get? key ((limit?.map (·.keywords bound exclusive)).getD []) =
      limit?.bind fun limit => (limit.keywords bound exclusive).get? key := by
  cases limit? <;> rfl

theorem bind_keywords_of_ne (limit? : Option Limit) {key bound exclusive : String}
    (hbound : key ≠ bound) (hexclusive : key ≠ exclusive) :
    (limit?.bind fun limit => (limit.keywords bound exclusive).get? key) = .none := by
  cases limit? with
  | none => rfl
  | some limit => exact limit.get?_keywords_of_ne hbound hexclusive

theorem get?_boundKeywords_lower {key : String} (hmaximum : key ≠ "maximum")
    (hexclusive : key ≠ "exclusiveMaximum") : c.boundKeywords.get? key =
      c.lower?.bind fun limit => (limit.keywords "minimum" "exclusiveMinimum").get? key := by
  rw [boundKeywords, Document.get?_append, get?_keywords_of_option, get?_keywords_of_option,
    bind_keywords_of_ne c.upper? hmaximum hexclusive, Option.or_none]

theorem get?_boundKeywords_upper {key : String} (hminimum : key ≠ "minimum")
    (hexclusive : key ≠ "exclusiveMinimum") : c.boundKeywords.get? key =
      c.upper?.bind fun limit => (limit.keywords "maximum" "exclusiveMaximum").get? key := by
  rw [boundKeywords, Document.get?_append, get?_keywords_of_option, get?_keywords_of_option,
    bind_keywords_of_ne c.lower? hminimum hexclusive, Option.none_or]

end Constraints

namespace Schema

variable {c : Constraints} {d : Document} {x : Rat}

/-- A lower bound that is set is the lower end of the range. -/
theorem lower_bounded_of_set {limit : Constraints.Limit} (hlimit : c.lower? = some limit) :
    (c.bounded d).get? "minimum" = some limit.value ∧
      flag (c.bounded d) "exclusiveMinimum" = limit.exclusive := by
  have hset : c.hasLowerBound := Constraints.hasLowerBound_of_lower? hlimit
  obtain ⟨hvalue, hflag⟩ := limit.get?_keywords (show "minimum" ≠ "exclusiveMinimum" by decide)
  rw [flag, Constraints.get?_bounded, Constraints.get?_bounded,
    Constraints.get?_boundKeywords_lower (by decide) (by decide),
    Constraints.get?_boundKeywords_lower (by decide) (by decide), hlimit, Option.bind_some,
    Option.bind_some, hvalue, hflag]
  refine ⟨rfl, ?_⟩
  cases limit.exclusive <;> simp [hset]

theorem upper_bounded_of_set {limit : Constraints.Limit} (hlimit : c.upper? = some limit)
    (hd : IsUnbounded d) : (c.bounded d).get? "maximum" = some limit.value ∧
      flag (c.bounded d) "exclusiveMaximum" = limit.exclusive := by
  obtain ⟨hvalue, hflag⟩ := limit.get?_keywords (show "maximum" ≠ "exclusiveMaximum" by decide)
  rw [flag, Constraints.get?_bounded, Constraints.get?_bounded,
    Constraints.get?_boundKeywords_upper (by decide) (by decide),
    Constraints.get?_boundKeywords_upper (by decide) (by decide), hlimit, Option.bind_some,
    Option.bind_some, hvalue, hflag, hd "exclusiveMaximum" (by decide)]
  refine ⟨rfl, ?_⟩
  cases limit.exclusive <;> simp

/-- Setting bounds in a schema that has at most a lower end leaves the numbers that the bounds
admit, from that end on if they set none themselves. -/
theorem inRange_bounded (hc : c.Passes) (hd : IsUnbounded d) :
    InRange (c.bounded d) x ↔ c.Admits x ∧ (c.hasLowerBound = false → InRange d x) := by
  have hunbounded : InRange d x ↔ ∀ value, d.get? "minimum" = some value →
      Constraints.Limit.Allows ⟨value, flag d "exclusiveMinimum"⟩ true x := by
    rw [InRange, hd "maximum" (by decide)]
    simp
  have hlower : (∀ value, (c.bounded d).get? "minimum" = some value →
        Constraints.Limit.Allows ⟨value, flag (c.bounded d) "exclusiveMinimum"⟩ true x) ↔
      (∀ limit, c.lower? = some limit → limit.Allows true x) ∧
        (c.hasLowerBound = false → InRange d x) := by
    cases hlimit : c.lower? with
    | none =>
      have hunset := Constraints.lower?_eq_none_iff.mp hlimit
      rw [hunbounded, flag, get?_bounded_of_ne (.inl hunset) (by decide) (by decide),
        get?_bounded_of_ne (.inl hunset) (by decide) (by decide)]
      simp [hunset, flag]
    | some limit =>
      obtain ⟨hvalue, hflag⟩ := lower_bounded_of_set (d := d) hlimit
      have hset : c.hasLowerBound := Constraints.hasLowerBound_of_lower? hlimit
      simp [hvalue, hflag, hset]
  have hupper : (∀ value, (c.bounded d).get? "maximum" = some value →
        Constraints.Limit.Allows ⟨value, flag (c.bounded d) "exclusiveMaximum"⟩ false x) ↔
      ∀ limit, c.upper? = some limit → limit.Allows false x := by
    cases hlimit : c.upper? with
    | none =>
      have hnone : (c.bounded d).get? "maximum" = none := by
        rw [Constraints.get?_bounded, Constraints.get?_boundKeywords_upper (by decide) (by decide),
          hlimit, hd "maximum" (by decide)]
        simp
      simp [hnone]
    | some limit =>
      obtain ⟨hvalue, hflag⟩ := upper_bounded_of_set hlimit hd
      simp [hvalue, hflag]
  rw [InRange, hlower, hupper, hc.admits_iff]
  exact and_right_comm

/-- The bounds of a range keyword are what it asks of numbers. -/
theorem passes_minimum {reading : Reading} {storage : NumberStorage}
    (hd : ∀ value, d.get? "minimum" = some value → ∃ number, value = .num number) :
    passes reading d "minimum" (.number storage x) ↔ ∀ value, d.get? "minimum" = some value →
      Constraints.Limit.Allows ⟨value, flag d "exclusiveMinimum"⟩ true x := by
  unfold passes
  cases hfound : d.get? "minimum" with
  | none => simp
  | some value =>
    obtain ⟨number, rfl⟩ := hd value hfound
    simp only [acceptsKeyword, acceptsPlain, acceptsBound, Option.some.injEq, forall_eq',
      Constraints.Limit.Allows, Json.bound?]
    cases number.toRat? <;> simp

theorem passes_maximum {reading : Reading} {storage : NumberStorage}
    (hd : ∀ value, d.get? "maximum" = some value → ∃ number, value = .num number) :
    passes reading d "maximum" (.number storage x) ↔ ∀ value, d.get? "maximum" = some value →
      Constraints.Limit.Allows ⟨value, flag d "exclusiveMaximum"⟩ false x := by
  unfold passes
  cases hfound : d.get? "maximum" with
  | none => simp
  | some value =>
    obtain ⟨number, rfl⟩ := hd value hfound
    simp only [acceptsKeyword, acceptsPlain, acceptsBound, Option.some.injEq, forall_eq',
      Constraints.Limit.Allows, Json.bound?]
    cases number.toRat? <;> simp

end Schema
end ShapeSchema
