import Mathlib.Algebra.Order.Field.Basic
import Mathlib.Algebra.Order.Field.Rat
import ShapeSchema.Proofs.Derivation.Level
import ShapeSchema.Schema.Range

/-!
What the check of constraints lets pass: at most one bound on each side, finite numbers, and room
for a number between them.
-/

namespace ShapeSchema

theorem Number.isFinite_iff {number : Number} :
    number.isFinite ↔ ∃ x, number.toRat? = some x := by
  cases number with
  | int value => exact ⟨fun _ => ⟨value, rfl⟩, fun _ => rfl⟩
  | double value =>
    cases value with
    | finite => exact ⟨fun _ => ⟨_, rfl⟩, fun _ => rfl⟩
    | infinite | nan => exact ⟨nofun, nofun⟩

theorem Json.eq_num_of_bound? {value : Json} {x : Rat} (h : value.bound? = some x) :
    ∃ number, value = .num number := by
  cases value with
  | num number => exact ⟨number, rfl⟩
  | _ => cases h

theorem Number.place?_of_toRat? {number : Number} {x : Rat} (h : number.toRat? = some x) :
    number.place? = some (.at x) := by
  cases number with
  | int value =>
    cases h
    rfl
  | double value =>
    cases value with
    | finite => exact congrArg (Option.map Place.at) h
    | infinite | nan => cases h

theorem forM_eq_ok {ε α : Type} {f : α → Except ε Unit} {xs : List α} :
    xs.forM f = .ok () ↔ ∀ x ∈ xs, f x = .ok () := by
  induction xs with
  | nil => exact ⟨fun _ => nofun, fun _ => rfl⟩
  | cons x xs ih =>
    have hforM : (x :: xs).forM f = f x >>= fun _ => xs.forM f := rfl
    rw [hforM, bind_eq_ok, List.forall_mem_cons, ← ih]
    exact ⟨fun ⟨_, h⟩ => h, fun h => ⟨(), h⟩⟩

namespace Constraints

variable {c : Constraints} {x : Rat}

theorem checkBound_eq_ok {name : String} {bound : Option Json} :
    checkBound (name, bound) = .ok () ↔
      ∀ value, bound = some value → ∃ x, value.bound? = some x := by
  cases bound with
  | none => exact ⟨fun _ => nofun, fun _ => rfl⟩
  | some value =>
    simp only [Option.some.injEq, forall_eq']
    cases value with
    | num number =>
      rw [Json.bound?, ← Number.isFinite_iff, checkBound]
      cases number.isFinite with
      | true => exact ⟨fun _ => rfl, fun _ => rfl⟩
      | false => exact ⟨nofun, nofun⟩
    | _ => exact ⟨nofun, nofun⟩

structure Passes (c : Constraints) : Prop where
  oneLower : ¬ (c.minInclusive.isSome ∧ c.minExclusive.isSome)
  oneUpper : ¬ (c.maxInclusive.isSome ∧ c.maxExclusive.isSome)
  finite : ∀ bound ∈ c.bounds, ∀ value, bound.2 = some value → ∃ x, value.bound? = some x
  room : ∀ lower upper, c.lower? = some lower → c.upper? = some upper →
    lower.excludeAll upper = false
  key : ∀ key, c.rename = some key → key.toList.all Unicode.isBlank = false

theorem checkRename_eq_ok {rename : Option String} :
    (match rename with
      | some key => if key.toList.all Unicode.isBlank then throw .emptyRename else pure ()
      | _ => pure () : Except Defect Unit) = .ok () ↔
      ∀ key, rename = some key → key.toList.all Unicode.isBlank = false := by
  cases rename with
  | none => exact ⟨fun _ => nofun, fun _ => rfl⟩
  | some key =>
    simp only [Option.some.injEq, forall_eq']
    cases key.toList.all Unicode.isBlank with
    | true => exact ⟨nofun, nofun⟩
    | false => exact ⟨fun _ => rfl, fun _ => rfl⟩

theorem check_eq_ok : c.check = .ok () ↔ c.Passes := by
  by_cases hlower : c.minInclusive.isSome ∧ c.minExclusive.isSome
  · simp only [check, if_pos hlower]
    exact ⟨nofun, fun h => absurd hlower h.oneLower⟩
  by_cases hupper : c.maxInclusive.isSome ∧ c.maxExclusive.isSome
  · simp only [check, if_neg hlower, if_pos hupper]
    exact ⟨nofun, fun h => absurd hupper h.oneUpper⟩
  simp only [check, if_neg hlower, if_neg hupper]
  rw [bind_eq_ok]
  have hbounds : c.bounds.forM checkBound = .ok () ↔
      ∀ bound ∈ c.bounds, ∀ value, bound.2 = some value → ∃ x, value.bound? = some x := by
    rw [forM_eq_ok]
    exact forall₂_congr fun bound _ => checkBound_eq_ok
  constructor
  · rintro ⟨_, hfinite, hrest⟩
    refine ⟨hlower, hupper, hbounds.mp hfinite, ?_, ?_⟩
    · intro lower upper hl hu
      simp only [hl, hu] at hrest
      cases hempty : lower.excludeAll upper with
      | false => rfl
      | true =>
        rw [hempty] at hrest
        cases hrest
    · refine checkRename_eq_ok.mp ?_
      split at hrest
      · split at hrest
        · cases hrest
        · exact hrest
      · exact hrest
  · intro h
    refine ⟨(), hbounds.mpr h.finite, ?_⟩
    have hkey := checkRename_eq_ok.mpr h.key
    split
    · next lower upper heq =>
      obtain ⟨hl, hu⟩ := Prod.mk.inj heq
      rw [if_neg (by simp [h.room lower upper hl hu])]
      exact hkey
    · exact hkey

/-- With one bound on each side, these are the ends of the range. -/
theorem admits_iff_of_single (hlower : ¬ (c.minInclusive.isSome ∧ c.minExclusive.isSome))
    (hupper : ¬ (c.maxInclusive.isSome ∧ c.maxExclusive.isSome)) : c.Admits x ↔
    (∀ limit, c.lower? = some limit → limit.Allows true x) ∧
      ∀ limit, c.upper? = some limit → limit.Allows false x := by
  obtain ⟨minInclusive, minExclusive, maxInclusive, maxExclusive, rename⟩ := c
  rw [Admits, ← and_assoc]
  refine and_congr ?_ ?_
  · cases minInclusive <;> cases minExclusive <;>
      simp_all [lower?, Limit.Allows, Schema.within]
  · cases maxInclusive <;> cases maxExclusive <;>
      simp_all [upper?, Limit.Allows, Schema.within]

theorem Passes.admits_iff (h : c.Passes) : c.Admits x ↔
    (∀ limit, c.lower? = some limit → limit.Allows true x) ∧
      ∀ limit, c.upper? = some limit → limit.Allows false x :=
  admits_iff_of_single h.oneLower h.oneUpper

theorem mem_bounds_of_lower? {limit : Limit} (hlimit : c.lower? = some limit) :
    ∃ name, (name, some limit.value) ∈ c.bounds := by
  obtain ⟨minInclusive, minExclusive, maxInclusive, maxExclusive, rename⟩ := c
  cases minExclusive with
  | some value =>
    cases hlimit
    exact ⟨"min_exclusive", by simp [bounds]⟩
  | none =>
    obtain ⟨value, rfl, rfl⟩ := Option.map_eq_some_iff.mp hlimit
    exact ⟨"min_inclusive", by simp [bounds]⟩

theorem mem_bounds_of_upper? {limit : Limit} (hlimit : c.upper? = some limit) :
    ∃ name, (name, some limit.value) ∈ c.bounds := by
  obtain ⟨minInclusive, minExclusive, maxInclusive, maxExclusive, rename⟩ := c
  cases maxExclusive with
  | some value =>
    cases hlimit
    exact ⟨"max_exclusive", by simp [bounds]⟩
  | none =>
    obtain ⟨value, rfl, rfl⟩ := Option.map_eq_some_iff.mp hlimit
    exact ⟨"max_inclusive", by simp [bounds]⟩

theorem lower?_eq_none_iff : c.lower? = .none ↔ c.hasLowerBound = false := by
  obtain ⟨minInclusive, minExclusive, maxInclusive, maxExclusive, rename⟩ := c
  cases minInclusive <;> cases minExclusive <;> simp [lower?, hasLowerBound]

theorem hasLowerBound_of_lower? {limit : Limit} (hlimit : c.lower? = some limit) :
    c.hasLowerBound := by
  by_contra hunset
  rw [lower?_eq_none_iff.mpr (eq_false_of_ne_true hunset)] at hlimit
  cases hlimit

theorem Limit.Allows.of_inside {limit : Limit} {isLower : Bool} {bound : Rat}
    (hbound : limit.value.bound? = some bound) (hinside : Schema.within bound x isLower true) :
    limit.Allows isLower x := by
  refine ⟨bound, hbound, ?_⟩
  cases limit.exclusive with
  | true => exact hinside
  | false => cases isLower <;> simp only [Schema.within, decide_eq_true_eq] at hinside ⊢ <;>
      exact le_of_lt hinside

/-- Two ends leave room if they are apart, or at one number that both include. -/
theorem Limit.excludeAll_eq_false {lower upper : Limit} {low high : Rat}
    (hlow : lower.value.bound? = some low) (hhigh : upper.value.bound? = some high) :
    lower.excludeAll upper = false ↔
      low < high ∨ low = high ∧ lower.exclusive = false ∧ upper.exclusive = false := by
  obtain ⟨lowerValue, lowerExclusive⟩ := lower
  obtain ⟨upperValue, upperExclusive⟩ := upper
  cases lowerValue with
  | num lower =>
    cases upperValue with
    | num upper =>
      have hless : upper.less lower = decide (high < low) := by
        simp only [Json.bound?] at hlow hhigh
        simp [Number.less, hlow, hhigh]
      have hsame : lower.same upper = decide (low = high) := by
        have hplace := Number.place?_of_toRat? hlow
        have hplace' := Number.place?_of_toRat? hhigh
        simp only [Number.same, hplace, hplace']
        rw [Bool.eq_iff_iff]
        simp
      simp only [excludeAll, hless, hsame, Bool.or_eq_false_iff, Bool.and_eq_false_iff,
        decide_eq_false_iff_not, not_lt]
      constructor
      · rintro ⟨hle, hends⟩
        rcases hle.lt_or_eq with hlt | heq
        · exact .inl hlt
        · exact .inr ⟨heq, hends.resolve_left (not_not_intro heq)⟩
      · rintro (hlt | ⟨rfl, hends⟩)
        · exact ⟨hlt.le, .inl hlt.ne⟩
        · exact ⟨le_refl _, .inr hends⟩
    | _ => cases hhigh
  | _ => cases hlow

/-- Ends that leave room have a number between them. -/
theorem exists_between_of_room {lower upper : Limit} {low high : Rat}
    (hlow : lower.value.bound? = some low) (hhigh : upper.value.bound? = some high)
    (hroom : lower.excludeAll upper = false) :
    ∃ x, lower.Allows true x ∧ upper.Allows false x := by
  rcases (Limit.excludeAll_eq_false hlow hhigh).mp hroom with hlt | ⟨rfl, hlower, hupper⟩
  · obtain ⟨x, hleft, hright⟩ := exists_between hlt
    exact ⟨x, .of_inside hlow (by simpa [Schema.within] using hleft),
      .of_inside hhigh (by simpa [Schema.within] using hright)⟩
  · exact ⟨low, ⟨low, hlow, by simp [hlower, Schema.within]⟩,
      ⟨low, hhigh, by simp [hupper, Schema.within]⟩⟩

/-- The ends of what passes the check are finite numbers. -/
theorem Passes.bound?_lower (h : c.Passes) {limit : Limit} (hlimit : c.lower? = some limit) :
    ∃ low, limit.value.bound? = some low := by
  obtain ⟨_, hmem⟩ := mem_bounds_of_lower? hlimit
  exact h.finite _ hmem _ rfl

theorem Passes.bound?_upper (h : c.Passes) {limit : Limit} (hlimit : c.upper? = some limit) :
    ∃ high, limit.value.bound? = some high := by
  obtain ⟨_, hmem⟩ := mem_bounds_of_upper? hlimit
  exact h.finite _ hmem _ rfl

/-- What passes the check admits a number. -/
theorem Passes.satisfiable (h : c.Passes) : c.Satisfiable := by
  simp only [Satisfiable, h.admits_iff]
  cases hlower : c.lower? with
  | none =>
    cases hupper : c.upper? with
    | none => exact ⟨0, nofun, nofun⟩
    | some upper =>
      obtain ⟨high, hhigh⟩ := h.bound?_upper hupper
      refine ⟨high - 1, nofun, ?_⟩
      rintro _ ⟨⟩
      exact .of_inside hhigh (by simp [Schema.within])
  | some lower =>
    obtain ⟨low, hlow⟩ := h.bound?_lower hlower
    cases hupper : c.upper? with
    | none =>
      refine ⟨low + 1, ?_, nofun⟩
      rintro _ ⟨⟩
      exact .of_inside hlow (by simp [Schema.within])
    | some upper =>
      obtain ⟨high, hhigh⟩ := h.bound?_upper hupper
      obtain ⟨x, hleft, hright⟩ := exists_between_of_room hlow hhigh (h.room _ _ hlower hupper)
      refine ⟨x, ?_, ?_⟩
      · rintro _ ⟨⟩
        exact hleft
      · rintro _ ⟨⟩
        exact hright

/-- Ends with a number between them leave room. -/
theorem Limit.excludeAll_eq_false_of_allows {lower upper : Limit} (hlower : lower.Allows true x)
    (hupper : upper.Allows false x) : lower.excludeAll upper = false := by
  obtain ⟨low, hlow, hleft⟩ := hlower
  obtain ⟨high, hhigh, hright⟩ := hupper
  rw [excludeAll_eq_false hlow hhigh]
  cases hopen : lower.exclusive with
  | true =>
    have hlt : low < x := by simpa [hopen, Schema.within] using hleft
    cases hend : upper.exclusive <;>
      simp only [hend, Schema.within, decide_eq_true_eq] at hright
    · exact .inl (hlt.trans_le hright)
    · exact .inl (hlt.trans hright)
  | false =>
    have hle : low ≤ x := by simpa [hopen, Schema.within] using hleft
    cases hend : upper.exclusive <;>
      simp only [hend, Schema.within, decide_eq_true_eq] at hright
    · exact (hle.trans hright).lt_or_eq.imp_right fun heq => ⟨heq, rfl, rfl⟩
    · exact .inl (hle.trans_lt hright)

/-- The check accepts exactly the constraints that have at most one bound on each side, finite
numbers as bounds, a number that satisfies all of them, and a key with something to see, if any. -/
theorem check_eq_ok_iff_satisfiable : c.check = .ok () ↔
    ¬ (c.minInclusive.isSome ∧ c.minExclusive.isSome) ∧
      ¬ (c.maxInclusive.isSome ∧ c.maxExclusive.isSome) ∧
      (∀ name value, (name, some value) ∈ c.bounds →
        ∃ number, value = .num number ∧ number.isFinite) ∧
      c.Satisfiable ∧
      ∀ key, c.rename = some key → ∃ char ∈ key.toList, Unicode.isBlank char = false := by
  have hfinite : ∀ value : Json,
      (∃ number, value = .num number ∧ number.isFinite) ↔ ∃ x, value.bound? = some x := by
    intro value
    constructor
    · rintro ⟨number, rfl, hnumber⟩
      exact Number.isFinite_iff.mp hnumber
    · rintro ⟨x, hx⟩
      obtain ⟨number, rfl⟩ := Json.eq_num_of_bound? hx
      exact ⟨number, rfl, Number.isFinite_iff.mpr ⟨x, hx⟩⟩
  have hkey : ∀ key : String, key.toList.all Unicode.isBlank = false ↔
      ∃ char ∈ key.toList, Unicode.isBlank char = false := by
    intro key
    simp
  rw [check_eq_ok]
  constructor
  · intro h
    refine ⟨h.oneLower, h.oneUpper, fun name value hbound => ?_, h.satisfiable,
      fun key hrename => ?_⟩
    · exact (hfinite value).mpr (h.finite _ hbound value rfl)
    · exact (hkey key).mp (h.key key hrename)
  · rintro ⟨hlower, hupper, hbounds, ⟨x, hx⟩, hrename⟩
    obtain ⟨hleft, hright⟩ := (admits_iff_of_single hlower hupper).mp hx
    refine ⟨hlower, hupper, ?_, fun lower upper hlow hhigh => ?_, fun key hset => ?_⟩
    · rintro ⟨name, _⟩ hbound value rfl
      exact (hfinite value).mp (hbounds name value hbound)
    · exact Limit.excludeAll_eq_false_of_allows (hleft lower hlow) (hright upper hhigh)
    · exact (hkey key).mpr (hrename key hset)

theorem upper?_eq_none_of_not_hasBounds (hbounds : c.hasBounds = false) : c.upper? = .none := by
  obtain ⟨minInclusive, minExclusive, maxInclusive, maxExclusive, rename⟩ := c
  cases maxInclusive <;> cases maxExclusive <;> simp_all [upper?, hasBounds]

theorem Limit.Allows.of_le {limit : Limit} {y : Rat} (h : limit.Allows false x) (hle : y ≤ x) :
    limit.Allows false y := by
  obtain ⟨bound, hbound, hwithin⟩ := h
  refine ⟨bound, hbound, ?_⟩
  cases hexclusive : limit.exclusive <;>
    simp only [hexclusive, Schema.within, decide_eq_true_eq] at hwithin ⊢
  · exact hle.trans hwithin
  · exact hle.trans_lt hwithin

/-- What passes the check admits a number of a kind, unless the kind starts at zero for want of a
lower bound and ends before it. -/
theorem Passes.exists_admits_iff (h : c.Passes) {kind : PrimitiveKind} :
    (∃ x, kind.Admits c x) ↔ (kind.isSigned = false → c.hasLowerBound = false →
      ∀ limit, c.upper? = some limit → limit.Allows false 0) := by
  constructor
  · rintro ⟨x, hadmits, hleast⟩ hsigned hlower limit hlimit
    exact ((h.admits_iff.mp hadmits).2 limit hlimit).of_le (hleast hsigned hlower)
  · intro hroom
    by_cases hzero : kind.isSigned = false ∧ c.hasLowerBound = false
    · refine ⟨0, h.admits_iff.mpr ⟨?_, hroom hzero.1 hzero.2⟩, fun _ _ => le_refl 0⟩
      rw [lower?_eq_none_iff.mpr hzero.2]
      nofun
    · obtain ⟨x, hadmits⟩ := h.satisfiable
      exact ⟨x, hadmits, fun hsigned hlower => absurd ⟨hsigned, hlower⟩ hzero⟩

end Constraints
end ShapeSchema
