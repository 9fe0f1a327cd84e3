import Mathlib.Data.Set.Function
import ShapeSchema.Proofs.Derivation.ErrorPlace
import ShapeSchema.Proofs.Naming.Conversion

/-!
Rules keep names of the usual forms apart. What a rule makes of a field's name can be read back, and
so can what a rule makes of a variant's name if it keeps words apart. So a record or an enum with
different names of these forms, none of them given by hand, never has one key for two members.
-/

namespace ShapeSchema.Naming

open RenameRule

variable {name : List Char}

def isSnakeChar (c : Char) : Bool :=
  isSmall c || isDecimal c || c = '_'

theorem isSnakeChar_of_mem {atStart : Bool} (h : isSnakeFrom atStart name) :
    ∀ c ∈ name, isSnakeChar c := by
  induction name generalizing atStart with
  | nil => simp
  | cons c rest ih =>
    rw [List.forall_mem_cons]
    cases atStart with
    | true =>
      rw [isSnakeFrom, Bool.and_eq_true] at h
      exact ⟨by simp [isSnakeChar, h.1], ih h.2⟩
    | false =>
      rw [isSnakeFrom] at h
      split at h
      · next hc => exact ⟨by simp [isSnakeChar, hc], ih h⟩
      · rw [Bool.and_eq_true] at h
        exact ⟨by simp [isSnakeChar, h.1], ih h.2⟩

section Reading

def underscore (cs : List Char) : List Char :=
  cs.map fun c => if c = '-' then '_' else c

theorem underscore_hyphenate (h : '-' ∉ name) : underscore (hyphenate name) = name := by
  rw [underscore, hyphenate, List.map_map]
  refine (List.map_congr_left fun c hc => ?_).trans (List.map_id name)
  have hne : c ≠ '-' := fun heq => h (heq ▸ hc)
  by_cases hunder : c = '_' <;> simp [hunder, hne]

/-- A character of a field's name and what stands for it in upper case. -/
theorem upper_of_isSnakeChar {c : Char} (h : isSnakeChar c) :
    ∃ image, Unicode.upper c = [image] ∧ Unicode.lower image = [c] ∧ image ≠ 'Σ' ∧ image ≠ '-' := by
  have hc : c.toNat < 128 := by
    rw [isSnakeChar, Bool.or_eq_true, Bool.or_eq_true, decide_eq_true_eq] at h
    rcases h with (hsmall | hdecimal) | rfl
    · exact lt_of_isSmall hsmall
    · exact lt_of_between '9' (by decide) hdecimal
    · decide
  refine ⟨c.toUpper, ?_⟩
  exact of_ascii (P := fun c => isSnakeChar c → Unicode.upper c = [c.toUpper] ∧
    Unicode.lower c.toUpper = [c] ∧ c.toUpper ≠ 'Σ' ∧ c.toUpper ≠ '-') (by decide) hc h

theorem lowerAfter_upperText (h : ∀ c ∈ name, isSnakeChar c)
    (before : List Char) : Unicode.lowerAfter before (Unicode.upperText name) = name := by
  induction name generalizing before with
  | nil => rfl
  | cons c rest ih =>
    obtain ⟨hc, hrest⟩ := List.forall_mem_cons.mp h
    obtain ⟨image, hupper, hlower, hsigma, _⟩ := upper_of_isSnakeChar hc
    have hback := ih hrest (image :: before)
    rw [Unicode.upperText] at hback
    rw [Unicode.upperText, List.flatMap_cons, hupper, List.singleton_append, Unicode.lowerAfter,
      if_neg hsigma, hlower, hback, List.singleton_append]

theorem hyphen_not_mem_upperText (h : ∀ c ∈ name, isSnakeChar c) :
    '-' ∉ Unicode.upperText name := by
  intro hmem
  obtain ⟨c, hc, himage⟩ := List.mem_flatMap.mp hmem
  obtain ⟨image, hupper, _, _, hne⟩ := upper_of_isSnakeChar (h c hc)
  rw [hupper] at himage
  exact hne (List.mem_singleton.mp himage).symm

/-- The first letter plays no part where capitals are looked for. -/
theorem splitCapitals_uncapitalize (h : IsSnake name) :
    splitCapitals true (uncapitalize (capitalizeParts true name)) = name := by
  have hback := splitCapitals_capitalizeParts h
  cases name with
  | nil => cases h
  | cons c rest =>
    rw [IsSnake, isSnakeFrom, Bool.and_eq_true] at h
    obtain ⟨capital, hupper, hlower, _⟩ := upper_of_isSmall h.1
    obtain ⟨hkept, _⟩ := inside_word (Bool.or_eq_true_iff.mpr (.inl h.1))
    rw [capitalizeParts_first h.1 hupper] at hback ⊢
    rw [splitCapitals_first hlower] at hback
    rw [uncapitalize, hlower, List.singleton_append, splitCapitals_first hkept, hback]

/-- The name of a field, read off what a rule makes of it. -/
def fieldOfForm : RenameRule → List Char → List Char
  | lowercase, form | snakeCase, form => form
  | uppercase, form | screamingSnakeCase, form => Unicode.lowerText form
  | pascalCase, form | camelCase, form => splitCapitals true form
  | kebabCase, form => underscore form
  | screamingKebabCase, form => Unicode.lowerText (underscore form)

theorem fieldOfForm_fieldForm (rule : RenameRule) (h : IsSnake name) :
    fieldOfForm rule (rule.fieldForm name) = name := by
  have hchars := isSnakeChar_of_mem h
  cases rule with
  | lowercase | snakeCase => rfl
  | uppercase | screamingSnakeCase => exact lowerAfter_upperText hchars []
  | pascalCase => exact splitCapitals_capitalizeParts h
  | camelCase => exact splitCapitals_uncapitalize h
  | kebabCase =>
    have hfree : '-' ∉ name := fun hmem => absurd (hchars _ hmem) (by decide)
    exact underscore_hyphenate hfree
  | screamingKebabCase =>
    rw [fieldForm, fieldOfForm, underscore_hyphenate (hyphen_not_mem_upperText hchars)]
    exact lowerAfter_upperText hchars []

end Reading

/-- The characters after the first one in Pascal case go on as a name in snake case does. -/
theorem isSnakeFrom_splitCapitals {rest : List Char}
    (h : rest.all fun c => isSmall c || isCapital c || isDecimal c) :
    isSnakeFrom false (splitCapitals false rest) := by
  induction rest with
  | nil => rfl
  | cons c rest ih =>
    rw [List.all_cons, Bool.and_eq_true] at h
    have hword := ih h.2
    by_cases hcapital : isCapital c
    · obtain ⟨small, hlower, _, hsmall⟩ := lower_of_isCapital hcapital
      rw [splitCapitals_capital hcapital, splitCapitals_first hlower]
      simp [isSnakeFrom, hsmall, hword]
    · have hkept : isSmall c || isDecimal c := by simpa [hcapital] using h.1
      obtain ⟨_, _, hne, _⟩ := inside_word hkept
      rw [splitCapitals_inside hkept]
      simp [isSnakeFrom, hne, hkept, hword]

/-- The snake case of a variant's name is the name of a field. -/
theorem isSnake_splitCapitals (h : IsPascal name) : IsSnake (splitCapitals true name) := by
  obtain ⟨c, rest, rfl, hcapital, hrest⟩ := h
  obtain ⟨small, hlower, _, hsmall⟩ := lower_of_isCapital hcapital
  rw [splitCapitals_first hlower, IsSnake, isSnakeFrom, hsmall, isSnakeFrom_splitCapitals hrest]
  rfl

theorem applyToField_injOn (rule : RenameRule) :
    Set.InjOn rule.applyToField {name | IsSnake name.toList} := by
  intro first hfirst second hsecond heq
  have hform : rule.fieldForm first.toList = rule.fieldForm second.toList :=
    String.ofList_injective heq
  apply String.toList_injective
  rw [← fieldOfForm_fieldForm rule hfirst, hform, fieldOfForm_fieldForm rule hsecond]

theorem applyToVariant_injOn {rule : RenameRule} (hlower : rule ≠ lowercase)
    (hupper : rule ≠ uppercase) : Set.InjOn rule.applyToVariant {name | IsPascal name.toList} := by
  intro first hfirst second hsecond heq
  have hform : rule.variantForm first.toList = rule.variantForm second.toList :=
    String.ofList_injective heq
  rw [variantForm_eq_fieldForm hfirst hlower hupper,
    variantForm_eq_fieldForm hsecond hlower hupper] at hform
  -- both names are those of fields in snake case, and come back from there
  have hsnake : splitCapitals true first.toList = splitCapitals true second.toList := by
    rw [← fieldOfForm_fieldForm rule (isSnake_splitCapitals hfirst), hform,
      fieldOfForm_fieldForm rule (isSnake_splitCapitals hsecond)]
  apply String.toList_injective
  rw [← capitalizeParts_splitCapitals hfirst, hsnake, capitalizeParts_splitCapitals hsecond]

end ShapeSchema.Naming

namespace ShapeSchema

open Naming

/-- Whether fields have different names in snake case and no keys given by hand. -/
structure UsualFields (fields : List Field) : Prop where
  nodup : (fields.map Field.name).Nodup
  snake : ∀ field ∈ fields, IsSnake field.name.toList
  free : ∀ field ∈ fields, field.constraints.rename = none

/-- Whether variants have different names in Pascal case and no keys given by hand. -/
structure UsualVariants (variants : List Variant) : Prop where
  nodup : (variants.map Variant.name).Nodup
  pascal : ∀ variant ∈ variants, IsPascal variant.name.toList
  free : ∀ variant ∈ variants, variant.constraints.rename = none

/-- Members with different names have different keys, if these come from the names alone and a name
can be told from its key. -/
theorem nodup_map_of_injOn {α : Type} {members : List α} {name key : α → String}
    {spell : String → String} {usual : Set String} (hspell : Set.InjOn spell usual)
    (hnodup : (members.map name).Nodup) (husual : ∀ x ∈ members, name x ∈ usual)
    (hkey : ∀ x ∈ members, key x = spell (name x)) : (members.map key).Nodup := by
  have hkeys : members.map key = (members.map name).map spell := by
    rw [List.map_map]
    exact List.map_congr_left hkey
  rw [hkeys]
  apply List.Nodup.map_on _ hnodup
  intro first hfirst second hsecond heq
  obtain ⟨x, hx, rfl⟩ := List.mem_map.mp hfirst
  obtain ⟨y, hy, rfl⟩ := List.mem_map.mp hsecond
  exact hspell (husual x hx) (husual y hy) heq

theorem UsualFields.nodup_fieldKeys {fields : List Field} (h : UsualFields fields)
    (rule : Option RenameRule) : (fieldKeys rule fields).Nodup := by
  have hkey : ∀ field ∈ fields, fieldKey field.name field.constraints.rename rule =
      (rule.map fun rule => rule.applyToField field.name).getD field.name := by
    intro field hfield
    rw [h.free field hfield]
    rfl
  cases rule with
  | none =>
    exact nodup_map_of_injOn (Set.injOn_id {name : String | IsSnake name.toList}) h.nodup h.snake
      hkey
  | some rule => exact nodup_map_of_injOn (applyToField_injOn rule) h.nodup h.snake hkey

theorem UsualVariants.nodup_variantKeys {variants : List Variant} (h : UsualVariants variants)
    {rule : Option RenameRule} (hlower : rule ≠ some .lowercase)
    (hupper : rule ≠ some .uppercase) : (variantKeys rule variants).Nodup := by
  have hkey : ∀ variant ∈ variants, variantKey variant.name variant.constraints.rename rule =
      (rule.map fun rule => rule.applyToVariant variant.name).getD variant.name := by
    intro variant hvariant
    rw [h.free variant hvariant]
    rfl
  cases rule with
  | none =>
    exact nodup_map_of_injOn (Set.injOn_id {name : String | IsPascal name.toList}) h.nodup h.pascal
      hkey
  | some rule =>
    have hinj : Set.InjOn rule.applyToVariant {name | IsPascal name.toList} :=
      applyToVariant_injOn (fun heq => hlower (congrArg some heq)) fun heq =>
        hupper (congrArg some heq)
    exact nodup_map_of_injOn hinj h.nodup h.pascal hkey

/-- The records to which the steps of a place lead from a root, with the rules for their keys: the
structs, and the struct variants, which have none. -/
inductive Graph.RecordAt (graph : Graph) (root : Shape) :
    List Step → Option RenameRule → List Field → Prop
  | struct {passed : List Shape} {steps : List Step} {index : Nat} {type : Struct}
      (walk : graph.Walk root passed steps (.declared index))
      (declared : graph.declaration? index = some (.struct type)) :
      RecordAt graph root steps type.renameAll type.fields
  | variant {passed : List Shape} {steps : List Step} {index : Nat} {type : Enum}
      {variant : Variant} {fields : List Field}
      (walk : graph.Walk root passed steps (.declared index))
      (declared : graph.declaration? index = some (.enum type))
      (isVariant : variant ∈ type.variants) (payload : variant.payload = .struct fields) :
      RecordAt graph root (steps ++ [.member variant.name]) none fields

inductive Graph.EnumAt (graph : Graph) (root : Shape) : List Step → Enum → Prop
  | intro {passed : List Shape} {steps : List Step} {index : Nat} {type : Enum}
      (walk : graph.Walk root passed steps (.declared index))
      (declared : graph.declaration? index = some (.enum type)) : EnumAt graph root steps type

namespace Context

variable {context : Context} {root : Shape} {c : Constraints} {key : String} {place : Location}

/-- A property is refused at a record that has its key twice. -/
theorem recordAt_of_duplicateProperty
    (hfail : context.derive? root c = .error ⟨.duplicateProperty key, place⟩) :
    ∃ rule fields, context.graph.RecordAt root place.steps rule fields ∧
      List.Duplicate key (fieldKeys rule fields) := by
  obtain ⟨steps, rfl, hexposes⟩ := exposes_of_derive? hfail
  cases hexposes with
  | root hpresent =>
    cases hpresent with
    | malformed hmalformed => cases hmalformed
  | below hwalk _ hsubject hpresent =>
    obtain ⟨index, rfl, ⟨type, rfl, hfound, htwice⟩ |
      ⟨type, variant, fields, rfl, hfound, hvariant, hpayload, htwice⟩⟩ :=
      Present.of_duplicateProperty hsubject hpresent
    · rw [List.append_nil]
      exact ⟨type.renameAll, type.fields, .struct hwalk hfound, htwice⟩
    · exact ⟨none, fields, .variant hwalk hfound hvariant hpayload, htwice⟩

/-- A variant is refused at an enum that has its key twice. -/
theorem enumAt_of_duplicateVariant
    (hfail : context.derive? root c = .error ⟨.duplicateVariant key, place⟩) :
    ∃ type, context.graph.EnumAt root place.steps type ∧
      List.Duplicate key (variantKeys type.renameAll type.variants) := by
  obtain ⟨steps, rfl, hexposes⟩ := exposes_of_derive? hfail
  cases hexposes with
  | root hpresent =>
    cases hpresent with
    | malformed hmalformed => cases hmalformed
  | below hwalk _ hsubject hpresent =>
    obtain ⟨index, type, rfl, rfl, hfound, htwice⟩ :=
      Present.of_duplicateVariant hsubject hpresent
    rw [List.append_nil]
    exact ⟨type, .intro hwalk hfound, htwice⟩

end Context

/-- No rule gives one key to two names of fields in snake case, and no rule that keeps words apart
gives one to two names of variants in Pascal case. So where a key is refused for being used twice,
it is used twice by a record or an enum that has equal names, names of another form or keys given by
hand, or by an enum whose rule runs words together. -/
theorem Graph.usual_names_distinct :
    (∀ rule : RenameRule, Set.InjOn rule.applyToField {name | IsSnake name.toList}) ∧
    (∀ rule : RenameRule, rule ≠ .lowercase → rule ≠ .uppercase →
      Set.InjOn rule.applyToVariant {name | IsPascal name.toList}) ∧
    ∀ (graph other : Graph) (root shape : Shape) (bindings : Bindings),
      graph.substitute bindings root = (shape, other) →
      ∀ (settings : DeriveSettings) (c : Constraints) (key : String) (place : Location),
      (graph.derive settings root c bindings = .error ⟨.duplicateProperty key, place⟩ →
        ∃ rule fields, other.RecordAt shape place.steps rule fields ∧
          List.Duplicate key (fieldKeys rule fields) ∧ ¬ UsualFields fields) ∧
      (graph.derive settings root c bindings = .error ⟨.duplicateVariant key, place⟩ →
        ∃ type, other.EnumAt shape place.steps type ∧
          List.Duplicate key (variantKeys type.renameAll type.variants) ∧
          (type.renameAll = some .lowercase ∨ type.renameAll = some .uppercase ∨
            ¬ UsualVariants type.variants)) := by
  refine ⟨applyToField_injOn, fun rule hlower hupper => applyToVariant_injOn hlower hupper, ?_⟩
  intro graph other root shape bindings hsubst settings c key place
  rw [graph.derive_eq hsubst]
  constructor
  · intro hfail
    obtain ⟨rule, fields, hrecord, htwice⟩ := Context.recordAt_of_duplicateProperty hfail
    refine ⟨rule, fields, hrecord, htwice, fun husual => ?_⟩
    have hnodup := husual.nodup_fieldKeys rule
    exact List.nodup_iff_forall_not_duplicate.mp hnodup key htwice
  · intro hfail
    obtain ⟨type, henum, htwice⟩ := Context.enumAt_of_duplicateVariant hfail
    refine ⟨type, henum, htwice, ?_⟩
    by_contra hneither
    rw [not_or, not_or, not_not] at hneither
    obtain ⟨hlower, hupper, husual⟩ := hneither
    have hnodup := husual.nodup_variantKeys hlower hupper
    exact List.nodup_iff_forall_not_duplicate.mp hnodup key htwice

/-- Names of points that only the parting of words tells apart, and one name that has no usual
form. -/
def pointGraph : Graph where
  declarations := #[
    .struct ⟨"Point", [⟨"x_y", .primitive .i32, .none, by decide⟩,
      ⟨"x__y", .primitive .i32, .none, by decide⟩], some .pascalCase, .unspecified⟩]
  labels := 0

/-- Names in snake case are kept apart, and a doubled underscore is lost. -/
theorem usual_names_distinct_point :
    (IsSnake "x_y".toList ∧ IsSnake "xy".toList ∧ IsPascal "XY".toList ∧ IsPascal "Xy".toList) ∧
      RenameRule.applyToField .camelCase "x_y" ≠ RenameRule.applyToField .camelCase "xy" ∧
      RenameRule.applyToVariant .kebabCase "XY" ≠ RenameRule.applyToVariant .kebabCase "Xy" ∧
      pointGraph.derive .default (.declared 0) .none [] =
        .error ⟨.duplicateProperty "XY", ⟨"Point", []⟩⟩ ∧
      ∃ rule fields, pointGraph.RecordAt (.declared 0) [] rule fields ∧
        List.Duplicate "XY" (fieldKeys rule fields) ∧ ¬ UsualFields fields := by
  have hparted : IsSnake "x_y".toList := by
    unfold IsSnake
    decide
  have hjoined : IsSnake "xy".toList := by
    unfold IsSnake
    decide
  have hcapitals : IsPascal "XY".toList := ⟨'X', ['Y'], by decide⟩
  have hcapital : IsPascal "Xy".toList := ⟨'X', ['y'], by decide⟩
  have hfail : pointGraph.derive .default (.declared 0) .none [] =
      .error ⟨.duplicateProperty "XY", ⟨"Point", []⟩⟩ := by
    rw [Graph.derive_nil, Context.derive?_struct _ rfl, Context.structSchema, Context.properties,
      Context.constrained, Context.plain_primitive]
    rfl
  obtain ⟨hfields, hvariants, hrefused⟩ := Graph.usual_names_distinct
  refine ⟨⟨hparted, hjoined, hcapitals, hcapital⟩, fun heq => ?_, fun heq => ?_, hfail, ?_⟩
  · exact absurd (hfields .camelCase hparted hjoined heq) (by decide)
  · exact absurd (hvariants .kebabCase (by decide) (by decide) hcapitals hcapital heq) (by decide)
  · exact (hrefused pointGraph _ (.declared 0) _ [] rfl .default .none "XY" ⟨"Point", []⟩).1 hfail

end ShapeSchema
