import ShapeSchema.Proofs.WellFormed.Fragment

/-!
What is done to a finished schema keeps it well formed: null is added to one keyword, which says
what kind of value is meant, and the bounds of constraints take the place of others.
-/

namespace ShapeSchema.Schema

variable {d : Document}

section Widening

def AreAlternatives (argument : Json) : Prop :=
  ∃ schemas, argument = .arr schemas ∧ schemas ≠ [] ∧ schemas.count nullOnly ≤ 1

theorem get?_put_kind {keyword key : String} (hkeyword : keyword ∈ ["bsonType", "type", "anyOf"])
    (hkey : key ∉ ["bsonType", "type", "anyOf"]) {argument : Json} :
    (d.put keyword argument).get? key = d.get? key := by
  refine Document.get?_put_of_ne ?_ argument d
  rintro rfl
  exact hkey hkeyword

/-- Another argument for the keyword that says what kind of value is meant. -/
theorem IsRegular.put_kind (hd : IsRegular d) {keyword : String}
    (hkeyword : keyword ∈ ["bsonType", "type", "anyOf"]) (hhas : d.has keyword) {argument : Json}
    (hspec : keyword ≠ "anyOf" → IsTypeSpec argument)
    (halternatives : keyword = "anyOf" → AreAlternatives argument) :
    IsRegular (d.put keyword argument) := by
  have hother : ∀ key, key ∉ ["bsonType", "type", "anyOf"] →
      (d.put keyword argument).get? key = d.get? key := fun _ hkey => get?_put_kind hkeyword hkey
  have hsame : ∀ key, (d.put keyword argument).has key = d.has key := by
    intro key
    rw [has_eq_isSome, has_eq_isSome, Document.get?_put]
    split
    · next heq => rw [heq, ← has_eq_isSome, hhas, Option.isSome_some]
    · rfl
  exact {
    kindUnique := by simpa only [hsame] using hd.kindUnique
    typeSpec := by
      intro key hkey spec hfound
      rcases Document.of_get?_put hfound with ⟨rfl, rfl⟩ | hfound
      · apply hspec
        rintro rfl
        simp at hkey
      · exact hd.typeSpec key hkey spec hfound
    alternatives := by
      intro other hfound
      rcases Document.of_get?_put hfound with ⟨heq, rfl⟩ | hfound
      · exact halternatives heq.symm
      · exact hd.alternatives other hfound
    required := by
      simp (disch := decide) only [hother]
      exact hd.required
    positions := by
      simp (disch := decide) only [hother]
      exact hd.positions
    counts := by
      simp (disch := decide) only [hother]
      exact hd.counts
    lowerFlag := by
      rw [hsame, hsame]
      exact hd.lowerFlag
    upperFlag := by
      rw [hsame, hsame]
      exact hd.upperFlag }

theorem IsFresh.put_kind (hd : IsFresh d) {keyword : String}
    (hkeyword : keyword ∈ ["bsonType", "type", "anyOf"]) (hhas : d.has keyword) {argument : Json}
    (hform : hasForm keyword argument) (hspec : keyword ≠ "anyOf" → IsTypeSpec argument)
    (halternatives : keyword = "anyOf" → AreAlternatives argument)
    (hheld : HoldsWellFormed keyword argument) (hnull : keyword = "type" → argument ≠ .str "null") :
    IsFresh (d.put keyword argument) := by
  have hnodup := Document.nodup_keys_put hd.typed.nodup keyword argument
  have hother : ∀ key, key ∉ ["bsonType", "type", "anyOf"] →
      (d.put keyword argument).get? key = d.get? key := fun _ hkey => get?_put_kind hkeyword hkey
  exact {
    typed := hd.typed.put hform
    wellFormed := by
      have hregular := hd.wellFormed d (mem_subschemas_self d)
      refine (isWellFormed_iff_get? hnodup).mpr
        ⟨hregular.put_kind hkeyword hhas hspec halternatives, fun key other hfound => ?_⟩
      rcases Document.of_get?_put hfound with ⟨rfl, rfl⟩ | hfound
      · exact hheld
      · exact hd.wellFormed.held hfound
    notNull := by
      intro hfound
      rcases Document.of_get?_put hfound with ⟨hkind, heq⟩ | hfound
      · exact hnull hkind.symm heq.symm
      · exact hd.notNull hfound
    unlisted := by
      rw [hother "enum" (by simp)]
      exact hd.unlisted
    unbounded := by
      intro key hkey
      rw [hother key]
      · exact hd.unbounded key hkey
      · simp only [boundKeys, List.mem_cons, List.not_mem_nil, or_false] at hkey
        rcases hkey with rfl | rfl | rfl <;> simp }

/-- A type specification can be widened, and does not stand for null alone if it did not before. -/
theorem withNull_of_isTypeSpec {spec : Json} (h : IsTypeSpec spec) :
    ∃ widened, withNull spec = .ok widened ∧ IsTypeSpec widened ∧
      (spec ≠ .str "null" → widened ≠ .str "null") := by
  rcases h with ⟨name, rfl⟩ | ⟨name, hname, rfl⟩
  · by_cases hname : name = "null"
    · exact ⟨.str name, by rw [withNull, if_pos hname], .inl ⟨name, rfl⟩, id⟩
    · exact ⟨_, by rw [withNull, if_neg hname], .inr ⟨name, hname, rfl⟩, by simp⟩
  · exact ⟨_, by rw [withNull, if_pos (by simp)], .inr ⟨name, hname, rfl⟩, id⟩

theorem IsFresh.put_spec (hd : IsFresh d) {keyword : String}
    (hkeyword : keyword = "bsonType" ∨ keyword = "type") {spec : Json}
    (hfound : d.get? keyword = some spec) :
    ∃ widened, withNull spec = .ok widened ∧ IsFresh (d.put keyword widened) := by
  have hregular := hd.wellFormed d (mem_subschemas_self d)
  have hspec : IsTypeSpec spec := by
    refine hregular.typeSpec keyword ?_ spec hfound
    rcases hkeyword with rfl | rfl <;> simp
  obtain ⟨widened, hok, hwidened, hnull⟩ := withNull_of_isTypeSpec hspec
  refine ⟨widened, hok, hd.put_kind ?_ (Document.has_iff.mpr ⟨spec, hfound⟩) ?_
    (fun _ => hwidened) ?_ ?_ ?_⟩
  · rcases hkeyword with rfl | rfl <;> simp
  · rcases hwidened with ⟨_, rfl⟩ | ⟨_, _, rfl⟩ <;> rcases hkeyword with rfl | rfl <;> rfl
  · rcases hkeyword with rfl | rfl <;> simp
  · refine holdsWellFormed_of_not_mem ?_
    rcases hkeyword with rfl | rfl <;> simp
  · rintro rfl
    refine hnull fun heq => ?_
    rw [heq] at hfound
    exact hd.notNull hfound

theorem isWellFormed_nullOnly : IsWellFormed [("type", .str "null")] := by
  refine isWellFormed_iff_members.mpr ⟨.of_kind (.inl rfl) ?_ ?_, ?_⟩
  · simp [Document.keys]
  · simp
  · simp [holdsWellFormed_of_not_mem]

/-- A union gets an alternative for null unless it has one. -/
theorem IsFresh.put_alternatives (hd : IsFresh d) {alternatives : List Json}
    (hfound : d.get? "anyOf" = some (.arr alternatives)) (hnull : nullOnly ∉ alternatives) :
    IsFresh (d.put "anyOf" (.arr (alternatives ++ [nullOnly]))) := by
  have hcount : (alternatives ++ [nullOnly]).count nullOnly = 1 := by
    rw [List.count_append, List.count_eq_zero.mpr hnull, List.count_singleton_self]
  refine hd.put_kind (by simp) (Document.has_iff.mpr ⟨_, hfound⟩) rfl (by simp)
    (fun _ => ⟨_, rfl, by simp, Nat.le_of_eq hcount⟩) ?_ (by simp)
  refine (holdsWellFormed_schemas_iff (.inl rfl)).mpr fun schema hmem => ?_
  rcases List.mem_append.mp hmem with hmem | hmem
  · exact (holdsWellFormed_schemas_iff (.inl rfl)).mp (hd.wellFormed.held hfound) schema hmem
  · cases List.mem_singleton.mp hmem
    exact isWellFormed_nullOnly

/-- A schema in order can be widened, and is in order then. -/
theorem IsFresh.widened (hd : IsFresh d) :
    ∃ widened, widenNullable d = .ok widened ∧ IsFresh widened := by
  cases hbson : d.get? "bsonType" with
  | some spec =>
    obtain ⟨widened, hok, hwidened⟩ := hd.put_spec (.inl rfl) hbson
    exact ⟨_, by simp only [widenNullable, hbson, hok, Except.map], hwidened⟩
  | none =>
    cases htype : d.get? "type" with
    | some spec =>
      obtain ⟨widened, hok, hwidened⟩ := hd.put_spec (.inr rfl) htype
      exact ⟨_, by simp only [widenNullable, hbson, htype, hok, Except.map], hwidened⟩
    | none =>
      cases hany : d.get? "anyOf" with
      | none => exact ⟨d, by simp only [widenNullable, hbson, htype, hany], hd⟩
      | some argument =>
        have hregular := hd.wellFormed d (mem_subschemas_self d)
        obtain ⟨alternatives, rfl, -, -⟩ := hregular.alternatives argument hany
        refine ⟨_, widenNullable_of_anyOf hbson htype hany, ?_⟩
        split
        · exact hd
        · next hnull => exact hd.put_alternatives hany hnull

end Widening

section Bounding

/-- Constraints that leave out the end of a range name this end. -/
theorem has_boundKeywords (c : Constraints) :
    (c.boundKeywords.has "exclusiveMinimum" → c.boundKeywords.has "minimum") ∧
      (c.boundKeywords.has "exclusiveMaximum" → c.boundKeywords.has "maximum") := by
  have hkeywords : ∀ (limit : Constraints.Limit) (bound exclusive key : String),
      (limit.keywords bound exclusive).has key ↔
        bound = key ∨ limit.exclusive ∧ exclusive = key := by
    intro limit bound exclusive key
    cases h : limit.exclusive <;> simp [Constraints.Limit.keywords, Document.has, h]
  have happend : ∀ (first second : Document) (key : String),
      (first ++ second).has key ↔ first.has key ∨ second.has key := by
    simp [Document.has]
  have hnil : ∀ key, Document.has key [] = false := fun _ => rfl
  unfold Constraints.boundKeywords
  rw [happend, happend, happend, happend]
  cases c.lower? <;> cases c.upper? <;> simp [hkeywords, hnil]

theorem get?_bounded_of_not_mem (c : Constraints) {key : String}
    (hkey : key ∉ "minimum" :: boundKeys) : (c.bounded d).get? key = d.get? key := by
  simp only [boundKeys, List.mem_cons, List.not_mem_nil, or_false, not_or] at hkey
  obtain ⟨hminimum, hexclusive, hmaximum, hexclusive'⟩ := hkey
  exact get?_bounded_of_ne (.inr ⟨hminimum, hexclusive⟩) hmaximum hexclusive'

/-- The bounds of constraints fit each other, whatever the schema said before. -/
theorem IsRegular.bounded (hd : IsRegular d) (hunbounded : IsUnbounded d) (c : Constraints) :
    IsRegular (c.bounded d) := by
  have hother : ∀ key, key ∉ "minimum" :: boundKeys → (c.bounded d).get? key = d.get? key :=
    fun _ hkey => get?_bounded_of_not_mem c hkey
  have hsame : ∀ key, key ∉ "minimum" :: boundKeys → (c.bounded d).has key = d.has key := by
    intro key hkey
    rw [has_eq_isSome, has_eq_isSome, hother key hkey]
  have hset : ∀ key ∈ boundKeys, (c.bounded d).has key → c.boundKeywords.has key := by
    intro key hkey hhas
    rw [has_eq_isSome, Constraints.get?_bounded, hunbounded key hkey, ite_self, Option.or_none,
      ← has_eq_isSome] at hhas
    exact hhas
  have hbounded : ∀ key, c.boundKeywords.has key → (c.bounded d).has key := by
    intro key hhas
    obtain ⟨argument, hfound⟩ := Document.has_iff.mp hhas
    refine Document.has_iff.mpr ⟨argument, ?_⟩
    rw [Constraints.get?_bounded, hfound, Option.some_or]
  exact {
    kindUnique := by
      have hkind := hd.kindUnique
      simp only [List.filter_cons] at hkind ⊢
      rwa [hsame "type" (by decide), hsame "bsonType" (by decide), hsame "anyOf" (by decide)]
    typeSpec := by
      intro key hkey
      rw [hother key (by rcases List.mem_pair.mp hkey with rfl | rfl <;> decide)]
      exact hd.typeSpec key hkey
    alternatives := by
      rw [hother "anyOf" (by decide)]
      exact hd.alternatives
    required := by
      rw [hother "required" (by decide), hother "properties" (by decide)]
      exact hd.required
    positions := by
      simp (disch := decide) only [hother]
      exact hd.positions
    counts := by
      simp (disch := decide) only [hother]
      exact hd.counts
    lowerFlag := by
      intro hhas
      have hflag := hset "exclusiveMinimum" (by simp [boundKeys]) hhas
      exact hbounded "minimum" ((has_boundKeywords c).1 hflag)
    upperFlag := by
      intro hhas
      have hflag := hset "exclusiveMaximum" (by simp [boundKeys]) hhas
      exact hbounded "maximum" ((has_boundKeywords c).2 hflag) }

/-- A schema in order can be put into another one after its bounds are set. -/
theorem IsFresh.bounded (hd : IsFresh d) (c : Constraints) : IsCoherent (c.bounded d) where
  typed := hd.typed.bounded c
  wellFormed := by
    have hregular := hd.wellFormed d (mem_subschemas_self d)
    refine (isWellFormed_iff_get? (c.nodup_bounded hd.typed.nodup)).mpr
      ⟨hregular.bounded hd.unbounded c, fun key argument hfound => ?_⟩
    by_cases hkey : key ∈ "minimum" :: boundKeys
    · refine holdsWellFormed_of_not_mem ?_
      simp only [boundKeys, List.mem_cons, List.not_mem_nil, or_false] at hkey
      rcases hkey with rfl | rfl | rfl | rfl <;> simp
    · rw [get?_bounded_of_not_mem c hkey] at hfound
      exact hd.wellFormed.held hfound
  notNull := by
    rw [get?_bounded_of_not_mem c (by decide)]
    exact hd.notNull
  unlisted := by
    rw [get?_bounded_of_not_mem c (by decide)]
    exact hd.unlisted

theorem yields_applyBounds (context : Context) (shape : Shape) (c : Constraints)
    (hd : IsFresh d) : Yields IsCoherent (context.applyBounds shape c d) := by
  unfold Context.applyBounds
  split
  · split
    · exact hd.bounded c
    · trivial
  · trivial

end Bounding

end ShapeSchema.Schema
