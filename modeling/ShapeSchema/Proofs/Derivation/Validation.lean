import ShapeSchema.Proofs.Derivation.Coverage

/-!
Which constraints a successful derivation has checked: those of the root, of every field and of
every variant with a single payload, wherever they stand below the root. Other variants have no
bounds then, but the key given to them can be blank.
-/

namespace ShapeSchema

namespace Constraints

def hasBlankRename (c : Constraints) : Bool :=
  c.rename.any fun key => key.toList.all Unicode.isBlank

/-- Without bounds only the key can be refused. -/
theorem check_of_not_hasBounds {c : Constraints} (hbounds : c.hasBounds = false) :
    c.check = if c.hasBlankRename then .error .emptyRename else .ok () := by
  obtain ⟨minInclusive, minExclusive, maxInclusive, maxExclusive, rename⟩ := c
  simp only [hasBounds, hasLowerBound, Bool.or_eq_false_iff, Option.isSome_eq_false_iff,
    Option.isNone_iff_eq_none] at hbounds
  obtain ⟨⟨⟨rfl, rfl⟩, rfl⟩, rfl⟩ := hbounds
  cases rename <;> rfl

end Constraints

def Payload.isSingle : Payload → Bool
  | .newtype _ => true
  | _ => false

/-- The variants of a shape whose own constraints nothing checks. -/
def Graph.uncheckedVariants (graph : Graph) : Shape → List Variant
  | .declared index =>
    match graph.declaration? index with
    | some (.enum type) => type.variants.filter (!·.payload.isSingle)
    | _ => []
  | _ => []

theorem FieldsFit.check {rule : Option RenameRule} {fields : List Field}
    (h : FieldsFit rule fields) : ∀ set ∈ fields.map Field.constraints, set.check = .ok () := by
  intro set hset
  obtain ⟨field, hfield, rfl⟩ := List.mem_map.mp hset
  exact (h.fit field hfield).check

/-- The constraints of a variant in order pass, except perhaps its own ones. -/
theorem Variant.Fits.check {variant : Variant} (h : variant.Fits) :
    ∀ set ∈ variant.constraintSets, set.check = .ok () ∨
      variant.payload.isSingle = false ∧ set = variant.constraints ∧ set.hasBounds = false := by
  obtain ⟨name, payload, c, hname⟩ := variant
  intro set hset
  rcases List.mem_cons.mp hset with rfl | hset
  · cases payload with
    | newtype shape => exact .inl (Constraints.Fit.check h)
    | struct fields => exact .inr ⟨rfl, rfl, h.1⟩
    | unit | tuple => exact .inr ⟨rfl, rfl, h⟩
  · cases payload with
    | struct fields => exact .inl (h.2.check set hset)
    | _ => cases hset

/-- The constraints in a shape in order pass, except perhaps those of unchecked variants, which have
no bounds. -/
theorem Context.Fits.check {context : Context} {shape : Shape} (h : context.Fits shape) :
    ∀ set ∈ context.graph.constraintSets shape, set.check = .ok () ∨
      ∃ variant ∈ context.graph.uncheckedVariants shape,
        set = variant.constraints ∧ set.hasBounds = false := by
  intro set hset
  cases shape with
  | declared index =>
    cases hfound : context.graph.declaration? index with
    | none => simp [Graph.constraintSets, hfound] at hset
    | some type =>
      simp only [Fits, hfound] at h
      simp only [Graph.constraintSets, hfound, Option.map_some, Option.getD_some] at hset
      simp only [Graph.uncheckedVariants, hfound]
      cases type with
      | struct type => exact .inl (h.check set hset)
      | tuple type => cases hset
      | enum type =>
        obtain ⟨variant, hvariant, hset⟩ := List.mem_flatMap.mp hset
        rcases (h.variants variant hvariant).check set hset with hcheck | ⟨hsingle, hown⟩
        · exact .inl hcheck
        · exact .inr ⟨variant, List.mem_filter.mpr ⟨hvariant, by simp [hsingle]⟩, hown⟩
  | _ => cases hset

/-- Unchecked variants of a shape in order have no bounds. -/
theorem Context.Fits.unchecked {context : Context} {shape : Shape} (h : context.Fits shape) :
    ∀ variant ∈ context.graph.uncheckedVariants shape,
      variant.constraints ∈ context.graph.constraintSets shape ∧
        variant.constraints.hasBounds = false := by
  intro variant hvariant
  cases shape with
  | declared index =>
    simp only [Graph.uncheckedVariants] at hvariant
    split at hvariant
    · next type hfound =>
      simp only [Fits, hfound] at h
      obtain ⟨hmem, hsingle⟩ := List.mem_filter.mp hvariant
      have hset : variant.constraints ∈ variant.constraintSets := List.mem_cons_self
      refine ⟨?_, ?_⟩
      · simp only [Graph.constraintSets, hfound, Option.map_some, Option.getD_some]
        exact List.mem_flatMap.mpr ⟨variant, hmem, hset⟩
      · have hfits := h.variants variant hmem
        unfold Variant.Fits at hfits
        split at hfits
        · next hpayload => simp [hpayload, Payload.isSingle] at hsingle
        · exact hfits.1
        · exact hfits
    · cases hvariant
  | _ => cases hvariant

/-- If a root has a schema, then its constraints pass, and so do all constraints that it reaches,
except that the key of an unchecked variant can be blank. All of them pass exactly if no unchecked
variant has a blank key. -/
theorem Graph.derive_checks {graph other : Graph} {root shape : Shape} {bindings : Bindings}
    (hsubst : graph.substitute bindings root = (shape, other)) {settings : DeriveSettings}
    {c : Constraints} {doc : Document} (hroot : graph.derive settings root c bindings = .ok doc) :
    c.check = .ok () ∧
      (∀ target, other.Reaches shape target → ∀ set ∈ other.constraintSets target,
        set.check = .ok () ∨ set.check = .error .emptyRename ∧
          ∃ variant ∈ other.uncheckedVariants target, set = variant.constraints) ∧
      ((∀ target, other.Reaches shape target →
          ∀ set ∈ other.constraintSets target, set.check = .ok ()) ↔
        ∀ target, other.Reaches shape target →
          ∀ variant ∈ other.uncheckedVariants target,
            variant.constraints.hasBlankRename = false) := by
  rw [derive_eq hsubst] at hroot
  obtain ⟨hfit, hderives⟩ := Context.succeeds_derive?.mp ⟨doc, hroot⟩
  have hfits : ∀ target, other.Reaches shape target → Context.Fits ⟨other, _⟩ target :=
    fun target hreaches => hderives.fits hreaches.avoiding_nil
  refine ⟨hfit.check, fun target hreaches set hset => ?_, ?_, ?_⟩
  · rcases (hfits target hreaches).check set hset with hcheck | ⟨variant, hmem, hown, hbounds⟩
    · exact .inl hcheck
    · rw [Constraints.check_of_not_hasBounds hbounds]
      cases set.hasBlankRename with
      | false => exact .inl rfl
      | true => exact .inr ⟨rfl, variant, hmem, hown⟩
  · intro hchecks target hreaches variant hmem
    obtain ⟨hset, hbounds⟩ := (hfits target hreaches).unchecked variant hmem
    have hcheck := hchecks target hreaches _ hset
    rw [Constraints.check_of_not_hasBounds hbounds] at hcheck
    cases hblank : variant.constraints.hasBlankRename with
    | false => rfl
    | true => simp [hblank] at hcheck
  · intro hblank target hreaches set hset
    rcases (hfits target hreaches).check set hset with hcheck | ⟨variant, hmem, rfl, hbounds⟩
    · exact hcheck
    · rw [Constraints.check_of_not_hasBounds hbounds, hblank target hreaches variant hmem]
      rfl

def levelGraph (key : String) : Graph where
  declarations := #[.enum ⟨"Level", [⟨"Low", .unit, { Constraints.none with rename := some key },
    by decide⟩], .external, none⟩]
  labels := 0

def levelSchema (key : String) : Document :=
  [("anyOf", .arr [.obj (Tagging.closedObject
    [(key, .obj [("type", .arr [.str "array", .str "null"]), ("maxItems", Schema.count 0)])])])]

/-- A blank key of a unit variant is not refused. -/
theorem derive_blank_level :
    (levelGraph " ").derive .default (.declared 0) .none [] = .ok (levelSchema " ") ∧
      ∃ set ∈ (levelGraph " ").constraintSets (.declared 0), set.check = .error .emptyRename := by
  constructor
  · rw [Graph.derive_nil]
    cbv
  · exact ⟨_, List.mem_cons_self, by decide⟩

theorem derive_checks_level :
    (levelGraph "low").derive .default (.declared 0) .none [] = .ok (levelSchema "low") ∧
      ∀ target, (levelGraph "low").Reaches (.declared 0) target →
        ∀ set ∈ (levelGraph "low").constraintSets target, set.check = .ok () := by
  have hroot : (levelGraph "low").derive .default (.declared 0) .none [] =
      .ok (levelSchema "low") := by
    rw [Graph.derive_nil]
    cbv
  have hsubst : (levelGraph "low").substitute [] (.declared 0) =
      (.declared 0, levelGraph "low") := rfl
  have hleaf : (levelGraph "low").parts (.declared 0) = [] := rfl
  refine ⟨hroot, (Graph.derive_checks hsubst hroot).2.2.mpr fun target hreaches => ?_⟩
  obtain ⟨_, _, hwalk⟩ := hreaches
  cases hwalk with
  | stay _ => decide
  | go hpart _ => rw [hleaf] at hpart; cases hpart

end ShapeSchema
