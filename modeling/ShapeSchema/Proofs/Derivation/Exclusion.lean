import ShapeSchema.Proofs.Acceptance.Exclusion
import ShapeSchema.Proofs.Derivation.Optionality

/-!
The alternatives of a tagged enum exclude each other. The keys of its variants are different, since
an enum whose keys meet has no schema, and every alternative shows the key of its variant. Optional
wrappers add one alternative for null, which shows no key, and named ones change nothing; where one
of them or the enum is being expanded, there is no union at all.
-/

namespace ShapeSchema

namespace Shape

/-- The named wrappers on the way down through all wrappers of a shape, and the shape below them. -/
def opened : Shape → List Shape
  | optional _ inner => inner.opened
  | newtype label name inner => newtype label name inner :: inner.opened
  | shape => [shape]

def hasOptional : Shape → Bool
  | optional .. => true
  | newtype _ _ inner => inner.hasOptional
  | _ => false

theorem sizeOf_opened {shape node : Shape} (hnode : node ∈ shape.opened) :
    sizeOf node ≤ sizeOf shape := by
  induction shape with
  | optional label inner ih =>
    have hle := ih hnode
    rw [optional.sizeOf_spec]
    omega
  | newtype label name inner ih =>
    rcases List.mem_cons.mp hnode with rfl | hnode
    · exact Nat.le_refl _
    · have hle := ih hnode
      rw [newtype.sizeOf_spec]
      omega
  | _ => exact Nat.le_of_eq (congrArg sizeOf (List.mem_singleton.mp hnode))

theorem newtype_not_mem_opened (label : Nat) (name : String) (inner : Shape) :
    newtype label name inner ∉ inner.opened := by
  intro hnode
  have hle := sizeOf_opened hnode
  rw [newtype.sizeOf_spec] at hle
  omega

end Shape

open Schema

/-- Whether a schema shows the key of a variant in all values that it accepts. -/
def Enum.Shows (type : Enum) (variant : Variant) (alternative : Document) : Prop :=
  ∀ reading value, accepts reading alternative value →
    type.tagging.Shows (variantKey variant.name variant.constraints.rename type.renameAll) value

def nullAlternatives (optional : Bool) : List Document :=
  if optional then [[("type", .str "null")]] else []

/-- Whether a schema is the union of an enum, with an alternative for each variant in order that
shows the key of the variant, and with one for null if the enum is optional, and whether no value is
accepted by two of the alternatives. -/
def Enum.IsExclusive (type : Enum) (optional : Bool) (doc : Document) : Prop :=
  ∃ own : List Document, List.Forall₂ type.Shows type.variants own ∧
    doc = [("anyOf", .arr ((own ++ nullAlternatives optional).map .obj))] ∧
      (own ++ nullAlternatives optional).Pairwise Excludes

namespace Enum

variable {type : Enum} {optional : Bool} {doc : Document}

/-- Alternatives that show different keys exclude each other. -/
theorem pairwise_excludes (htagged : type.tagging ≠ .untagged)
    (hkeys : (variantKeys type.renameAll type.variants).Nodup) {own : List Document}
    (hown : List.Forall₂ type.Shows type.variants own) : own.Pairwise Excludes := by
  obtain ⟨hlength, hshows⟩ := List.forall₂_iff_get.mp hown
  have hlisted : (variantKeys type.renameAll type.variants).length = own.length := by
    rw [variantKeys, List.length_map, hlength]
  rw [List.pairwise_iff_getElem]
  rintro i j hi hj hij reading value ⟨hfirst, hsecond⟩
  have hkey := Tagging.Shows.key_eq htagged (hshows i (by omega) hi reading value hfirst)
    (hshows j (by omega) hj reading value hsecond)
  apply List.pairwise_iff_getElem.mp hkeys i j (by omega) (by omega) hij
  simpa [variantKeys] using hkey

/-- No alternative that shows a key accepts null. -/
theorem not_accepts_null (htagged : type.tagging ≠ .untagged) {own : List Document}
    (hown : List.Forall₂ type.Shows type.variants own) {alternative : Document}
    (hmem : alternative ∈ own) (reading : Reading) : ¬ accepts reading alternative .null := by
  obtain ⟨hlength, hshows⟩ := List.forall₂_iff_get.mp hown
  obtain ⟨i, hi, rfl⟩ := List.getElem_of_mem hmem
  intro haccepts
  exact Tagging.not_shows_null htagged (hshows i (by omega) hi reading .null haccepts)

theorem nullOnly_not_mem (htagged : type.tagging ≠ .untagged) {own : List Document}
    (hown : List.Forall₂ type.Shows type.variants own) : nullOnly ∉ own.map Json.obj := by
  intro hmem
  obtain ⟨alternative, hmem, heq⟩ := List.mem_map.mp hmem
  cases heq
  have hnull : accepts ⟨fun _ _ => true, fun _ _ => true⟩ [("type", .str "null")] .null := rfl
  exact not_accepts_null htagged hown hmem _ hnull

/-- An exclusive union stays one when null is added, which happens once. -/
theorem IsExclusive.widened (htagged : type.tagging ≠ .untagged)
    (h : type.IsExclusive optional doc) :
    ∃ widened, widenNullable doc = .ok widened ∧ type.IsExclusive true widened := by
  obtain ⟨own, hown, rfl, hpairwise⟩ := h
  refine ⟨_, widenNullable_union _, own, hown, ?_, ?_⟩
  · cases optional with
    | true => rw [if_pos (by simp [nullAlternatives, nullOnly])]
    | false =>
      have habsent : nullOnly ∉ (own ++ nullAlternatives false).map Json.obj := by
        simpa [nullAlternatives] using nullOnly_not_mem htagged hown
      rw [if_neg habsent]
      simp [nullAlternatives, nullOnly]
  · refine List.pairwise_append.mpr ⟨?_, List.pairwise_singleton .., ?_⟩
    · exact (List.pairwise_append.mp hpairwise).1
    · intro alternative hmem null hnull reading value ⟨haccepts, hboth⟩
      obtain rfl := List.mem_singleton.mp hnull
      obtain rfl := accepts_nullOnly.mp hboth
      exact not_accepts_null htagged hown hmem reading haccepts

end Enum

namespace Context

variable {context : Context} {active : List Shape} {index : Nat}

/-- An enum has no bounds, so that constraints leave its schema as it is. -/
theorem plain_of_constrained {shape : Shape} {c : Constraints} {place : Location} {doc : Document}
    (hunwrapped : shape.unwrapped = .declared index)
    (hdoc : context.constrained (context.walk Policy.plain active) shape c place = .ok doc) :
    context.walk Policy.plain active shape place = .ok doc := by
  obtain ⟨hfit, inner, hinner, rfl⟩ := context.constrained_eq_ok.mp hdoc
  cases hbounds : c.hasBounds with
  | false => exact hinner
  | true =>
    obtain ⟨kind, hkind, _⟩ := hfit.number hbounds
    cases hunwrapped.symm.trans hkind

/-- A variant that is encoded has an alternative that shows its key. -/
theorem shows_of_encodedVariant {type : Enum} (htagged : type.tagging ≠ .untagged)
    {place : Location} {variant : Variant} {encoded : EncodedVariant} {schema : Json}
    (hencoded : context.encodedVariant (context.walk Policy.plain active) type.renameAll place
      variant = .ok encoded) (hschema : type.tagging.encode encoded = .ok schema) :
    ∃ alternative, schema = .obj alternative ∧ type.Shows variant alternative := by
  obtain ⟨alternative, halternative, hshows⟩ := shows_of_encode htagged hschema
  rw [context.key_encodedVariant hencoded] at hshows
  exact ⟨alternative, halternative, hshows⟩

section Tagged

variable {type : Enum} (hfound : context.graph.declaration? index = some (.enum type))
include hfound

/-- The keys of an enum with a schema are different. -/
theorem nodup_variantKeys (hmem : Shape.declared index ∉ active) {place : Location} {doc : Document}
    (hdoc : context.walk Policy.plain active (.declared index) place = .ok doc) :
    (variantKeys type.renameAll type.variants).Nodup := by
  have hderives : context.Derives active (.declared index) :=
    ((context.provides_walk active).succeeds _ place).mp ⟨doc, hdoc⟩
  obtain ⟨hfits, _⟩ := (derives_of_not_mem rfl hmem).mp hderives
  simp only [Fits, hfound] at hfits
  exact hfits.keys

variable (htagged : type.tagging ≠ .untagged)
include htagged

/-- A tagged enum that is expanded has an exclusive union as its schema. -/
theorem isExclusive_of_plain (hmem : Shape.declared index ∉ active) {place : Location}
    {doc : Document}
    (hdoc : context.walk Policy.plain active (.declared index) place = .ok doc) :
    type.IsExclusive false doc := by
  have hkeys := nodup_variantKeys hfound hmem hdoc
  obtain ⟨own, hunion, hown⟩ := alternatives_of_plain (P := type.Shows) hfound hmem
    (fun _ hencoded hschema => shows_of_encodedVariant htagged hencoded hschema) hdoc
  refine ⟨own, hown, ?_, ?_⟩
  · rw [hunion, nullAlternatives, if_neg Bool.false_ne_true, List.append_nil]
  · rw [nullAlternatives, if_neg Bool.false_ne_true, List.append_nil]
    exact type.pairwise_excludes htagged hkeys hown

/-- Below wrappers, a tagged enum has an exclusive union as its schema if all of them and the enum
are expanded. -/
theorem isExclusive_of_wrapped {shape : Shape} {place : Location} {doc : Document}
    (hunwrapped : shape.unwrapped = .declared index)
    (hopened : ∀ node ∈ shape.opened, node ∉ active)
    (hdoc : context.walk Policy.plain active shape place = .ok doc) :
    type.IsExclusive shape.hasOptional doc := by
  induction shape generalizing active doc with
  | optional label inner ih =>
    rw [context.walk_of_not_nominal Policy.plain active place rfl] at hdoc
    obtain ⟨given, hgiven, hdoc⟩ := bind_eq_ok.mp hdoc
    obtain ⟨widened, hwidened, hexclusive⟩ := (ih hunwrapped hopened hgiven).widened htagged
    cases hwidened.symm.trans (located_eq_ok.mp hdoc)
    exact hexclusive
  | newtype label name inner ih =>
    obtain ⟨hmem, hinner⟩ := List.forall_mem_cons.mp hopened
    rw [context.plain_of_not_mem place rfl hmem] at hdoc
    refine ih hunwrapped (fun node hnode => ?_) hdoc
    refine List.not_mem_cons_of_ne_of_not_mem ?_ (hinner node hnode)
    rintro rfl
    exact Shape.newtype_not_mem_opened label name inner hnode
  | declared =>
    cases hunwrapped
    exact isExclusive_of_plain hfound htagged (hopened _ List.mem_cons_self) hdoc
  | _ => cases hunwrapped

omit htagged in
/-- Where one of them is being expanded already, the schema says nothing. -/
theorem eq_nil_of_wrapped {shape : Shape} {place : Location} {doc : Document}
    (hunwrapped : shape.unwrapped = .declared index) (hcut : ∃ node ∈ shape.opened, node ∈ active)
    (hdoc : context.walk Policy.plain active shape place = .ok doc) : doc = [] := by
  induction shape generalizing active doc with
  | optional label inner ih =>
    rw [context.walk_of_not_nominal Policy.plain active place rfl] at hdoc
    obtain ⟨given, hgiven, hdoc⟩ := bind_eq_ok.mp hdoc
    obtain rfl := ih hunwrapped hcut hgiven
    cases located_eq_ok.mp hdoc
    rfl
  | newtype label name inner ih =>
    by_cases hmem : Shape.newtype label name inner ∈ active
    · rw [context.plain_of_mem place rfl hmem] at hdoc
      cases hdoc
      rfl
    · rw [context.plain_of_not_mem place rfl hmem] at hdoc
      obtain ⟨node, hnode, hactive⟩ := hcut
      rcases List.mem_cons.mp hnode with rfl | hnode
      · exact absurd hactive hmem
      · exact ih hunwrapped ⟨node, hnode, List.mem_cons_of_mem _ hactive⟩ hdoc
  | declared =>
    cases hunwrapped
    obtain ⟨node, hnode, hactive⟩ := hcut
    obtain rfl := List.mem_singleton.mp hnode
    rw [context.plain_of_mem place rfl hactive] at hdoc
    simp only [cutSchema, placeholder, hfound] at hdoc
    cases hdoc
    rfl
  | _ => cases hunwrapped

end Tagged
end Context

/-- Wherever a derivation meets a tagged enum, by itself or below optional and named wrappers, no
value is accepted by two alternatives of its schema; only where one of these nodes is being expanded
there are no alternatives, and the schema says nothing. -/
theorem Graph.derive_exclusive {graph other : Graph} {root shape : Shape} {bindings : Bindings}
    (hsubst : graph.substitute bindings root = (shape, other)) (settings : DeriveSettings)
    {index : Nat} {type : Enum} (hfound : other.declaration? index = some (.enum type))
    (htagged : type.tagging ≠ .untagged) :
    (∀ active part c place doc, part.unwrapped = .declared index →
      Context.constrained ⟨other, settings.strictObjects⟩
          (Context.walk ⟨other, settings.strictObjects⟩ Policy.plain active) part c place =
        .ok doc →
        ((∀ node ∈ part.opened, node ∉ active) → type.IsExclusive part.hasOptional doc) ∧
          ((∃ node ∈ part.opened, node ∈ active) → doc = [])) ∧
      ∀ c doc, shape.unwrapped = .declared index →
        graph.derive settings root c bindings = .ok doc →
          type.IsExclusive shape.hasOptional doc := by
  constructor
  · intro active part c place doc hunwrapped hdoc
    have hplain := Context.plain_of_constrained hunwrapped hdoc
    exact ⟨fun hopened => Context.isExclusive_of_wrapped hfound htagged hunwrapped hopened hplain,
      fun hcut => Context.eq_nil_of_wrapped hfound hunwrapped hcut hplain⟩
  · intro c doc hunwrapped hdoc
    rw [graph.derive_eq hsubst] at hdoc
    have hplain := Context.plain_of_constrained hunwrapped hdoc
    exact Context.isExclusive_of_wrapped hfound htagged hunwrapped (by simp) hplain

/-- A tree that may be missing is stored as null, as an empty tree or as a fork, although anything
may stand where the fork has its branches. -/
theorem derive_exclusive_tree :
    ∃ alternatives, treeSchema = [("anyOf", .arr alternatives)] ∧
      treeGraph.derive .default (.optional 0 (.declared 0)) .none [] =
          .ok [("anyOf", .arr (alternatives ++ [nullOnly]))] ∧
        treeType.IsExclusive true [("anyOf", .arr (alternatives ++ [nullOnly]))] := by
  refine ⟨_, rfl, ?_⟩
  have hsubst : treeGraph.substitute [] (.optional 0 (.declared 0)) =
      (.optional 0 (.declared 0), treeGraph) := rfl
  have hfound : treeGraph.declaration? 0 = some (.enum treeType) := rfl
  have htagged : treeType.tagging ≠ .untagged := by decide
  have hexclusive := (Graph.derive_exclusive hsubst .default hfound htagged).2 .none
  refine (fun hderive => ⟨hderive, hexclusive _ rfl hderive⟩) ?_
  rw [Graph.derive_nil]
  cbv

end ShapeSchema
