import ShapeSchema.Naming

/-!
When a rule makes nothing of a name. No letter disappears when its case changes, and a rule leaves
characters out only where it takes underscores away; so the name of a variant keeps a key under
every rule, and the name of a field loses it exactly if it consists of underscores and the rule
joins the words of names.
-/

namespace ShapeSchema

namespace Unicode

theorem mapCase_ne_nil {runs : Array (Nat × Nat × Nat × Int)} {special : Array (Nat × List Nat)}
    (hspecial : special.all (!·.2.isEmpty)) (c : Char) : mapCase runs special c ≠ [] := by
  unfold mapCase
  dsimp only
  split
  · next code image hfound =>
    have himage : (!image.isEmpty) = true :=
      Array.all_eq_true'.mp hspecial _ (Array.mem_of_find?_eq_some hfound)
    simpa using himage
  · split <;> simp

theorem upper_ne_nil (c : Char) : upper c ≠ [] := by
  unfold upper
  split
  · simp
  · exact mapCase_ne_nil (by decide +kernel) c

theorem lower_ne_nil (c : Char) : lower c ≠ [] := by
  unfold lower
  split
  · simp
  · exact mapCase_ne_nil (by decide +kernel) c

theorem upperText_eq_nil {cs : List Char} : upperText cs = [] ↔ cs = [] := by
  cases cs <;> simp [upperText, upper_ne_nil]

theorem lowerText_eq_nil {cs : List Char} : lowerText cs = [] ↔ cs = [] := by
  cases cs with
  | nil => simp [lowerText, lowerAfter]
  | cons c rest =>
    rw [lowerText, lowerAfter]
    split
    · split <;> simp
    · simp [lower_ne_nil]

end Unicode

namespace RenameRule

/-- Whether a rule takes the underscores of a field's name away. -/
def joinsWords : RenameRule → Bool
  | pascalCase | camelCase => true
  | _ => false

theorem hyphenate_eq_nil {cs : List Char} : hyphenate cs = [] ↔ cs = [] := by
  rw [hyphenate, List.map_eq_nil_iff]

theorem uncapitalize_eq_nil {cs : List Char} : uncapitalize cs = [] ↔ cs = [] := by
  cases cs <;> simp [uncapitalize, Unicode.lower_ne_nil]

theorem splitCapitals_eq_nil {atStart : Bool} {cs : List Char} :
    splitCapitals atStart cs = [] ↔ cs = [] := by
  cases cs <;> simp [splitCapitals, Unicode.lower_ne_nil]

/-- Only underscores disappear where words are joined. -/
theorem capitalizeParts_eq_nil {atStart : Bool} {cs : List Char} :
    capitalizeParts atStart cs = [] ↔ ∀ c ∈ cs, c = '_' := by
  induction cs generalizing atStart with
  | nil => simp [capitalizeParts]
  | cons c rest ih =>
    rw [capitalizeParts, List.forall_mem_cons]
    split
    case isTrue hc => rw [ih, and_iff_right hc]
    case isFalse hc =>
      have hkept : ¬(c = '_' ∧ ∀ d ∈ rest, d = '_') := fun h => hc h.1
      split <;> simp [Unicode.upper_ne_nil, hkept]

theorem fieldForm_eq_nil (rule : RenameRule) {cs : List Char} :
    rule.fieldForm cs = [] ↔ cs = [] ∨ rule.joinsWords = true ∧ ∀ c ∈ cs, c = '_' := by
  cases rule with
  | pascalCase =>
    rw [fieldForm, capitalizeParts_eq_nil]
    cases cs <;> simp [joinsWords]
  | camelCase =>
    rw [fieldForm, uncapitalize_eq_nil, capitalizeParts_eq_nil]
    cases cs <;> simp [joinsWords]
  | _ => simp [fieldForm, joinsWords, Unicode.upperText_eq_nil, hyphenate_eq_nil]

theorem variantForm_eq_nil (rule : RenameRule) {cs : List Char} :
    rule.variantForm cs = [] ↔ cs = [] := by
  cases rule <;> simp [variantForm, Unicode.upperText_eq_nil, Unicode.lowerText_eq_nil,
    hyphenate_eq_nil, uncapitalize_eq_nil, splitCapitals_eq_nil]

end RenameRule

/-- A field has an empty key if it was given one, or if its name consists of underscores and a rule
joins words. -/
theorem fieldKey_eq_empty {declared : String} (hdeclared : declared ≠ "") {rename : Option String}
    {rule : Option RenameRule} :
    fieldKey declared rename rule = "" ↔ rename = some "" ∨
      rename = none ∧ (∃ found, rule = some found ∧ found.joinsWords = true) ∧
        ∀ c ∈ declared.toList, c = '_' := by
  have hname : declared.toList ≠ [] := by simpa using hdeclared
  cases rename with
  | some key => simp [fieldKey]
  | none =>
    cases rule with
    | none => simp [fieldKey, hdeclared]
    | some found =>
      simp [fieldKey, RenameRule.applyToField, RenameRule.fieldForm_eq_nil, hname]

/-- A variant has an empty key only if it was given one. -/
theorem variantKey_eq_empty {declared : String} (hdeclared : declared ≠ "")
    {rename : Option String} {rule : Option RenameRule} :
    variantKey declared rename rule = "" ↔ rename = some "" := by
  cases rename with
  | some key => simp [variantKey]
  | none =>
    cases rule with
    | none => simp [variantKey, hdeclared]
    | some found =>
      simp [variantKey, RenameRule.applyToVariant, RenameRule.variantForm_eq_nil, hdeclared]

end ShapeSchema
