import ShapeSchema.Naming.Form

/-!
Fields in snake case and variants in Pascal case tell the same words apart: the underscores of one
spelling are where the capitals of the other one are. So each spelling can be read back from the
other, and a rule gives a variant the form that it gives to the field of the same words.
-/

namespace ShapeSchema.Naming

open RenameRule

section Letters

variable {c : Char}

/-- What holds of the characters of ASCII, one by one, holds of a character that is one. -/
theorem of_ascii {P : Char → Prop} (h : ∀ code : Fin 128, P (Char.ofNat code))
    (hc : c.toNat < 128) : P c := by
  have hcode := h ⟨c.toNat, hc⟩
  rwa [Char.ofNat_toNat] at hcode

theorem lt_of_between {first : Char} (last : Char) (hlast : last.toNat < 128)
    (h : first ≤ c && c ≤ last) : c.toNat < 128 := by
  rw [Bool.and_eq_true, decide_eq_true_eq, decide_eq_true_eq] at h
  have hcode : c.toNat ≤ last.toNat := h.2
  omega

theorem lt_of_isSmall (h : isSmall c) : c.toNat < 128 :=
  lt_of_between 'z' (by decide) h

theorem lt_of_isCapital (h : isCapital c) : c.toNat < 128 :=
  lt_of_between 'Z' (by decide) h

/-- A character of a word in snake case stays as it is in lower case, and parts no words. -/
theorem inside_word (h : isSmall c || isDecimal c) :
    Unicode.lower c = [c] ∧ Unicode.isUpper c = false ∧ c ≠ '_' ∧ c ≠ '-' := by
  have hc : c.toNat < 128 := by
    rcases Bool.or_eq_true_iff.mp h with hsmall | hdecimal
    · exact lt_of_isSmall hsmall
    · exact lt_of_between '9' (by decide) hdecimal
  exact of_ascii (P := fun c => isSmall c || isDecimal c →
    Unicode.lower c = [c] ∧ Unicode.isUpper c = false ∧ c ≠ '_' ∧ c ≠ '-') (by decide) hc h

/-- A small letter and the capital in whose place it stands. -/
theorem upper_of_isSmall (h : isSmall c) : ∃ capital, Unicode.upper c = [capital] ∧
    Unicode.lower capital = [c] ∧ isCapital capital := by
  refine ⟨c.toUpper, ?_⟩
  exact of_ascii (P := fun c => isSmall c → Unicode.upper c = [c.toUpper] ∧
    Unicode.lower c.toUpper = [c] ∧ isCapital c.toUpper) (by decide) (lt_of_isSmall h) h

/-- A capital and the small letter in whose place it stands. -/
theorem lower_of_isCapital (h : isCapital c) : ∃ small, Unicode.lower c = [small] ∧
    Unicode.upper small = [c] ∧ isSmall small := by
  refine ⟨c.toLower, ?_⟩
  exact of_ascii (P := fun c => isCapital c → Unicode.lower c = [c.toLower] ∧
    Unicode.upper c.toLower = [c] ∧ isSmall c.toLower) (by decide) (lt_of_isCapital h) h

theorem isUpper_of_isCapital (h : isCapital c) : Unicode.isUpper c :=
  of_ascii (P := fun c => isCapital c → Unicode.isUpper c) (by decide) (lt_of_isCapital h) h

theorem isSmall_ne_underscore (h : isSmall c) : c ≠ '_' :=
  (inside_word (Bool.or_eq_true_iff.mpr (.inl h))).2.2.1

end Letters

section Words

variable {name rest : List Char}

/-- An underscore stands before every capital but a first one. -/
theorem splitCapitals_capital {capital : Char} (h : isCapital capital) :
    splitCapitals false (capital :: rest) = '_' :: splitCapitals true (capital :: rest) := by
  simp [splitCapitals, isUpper_of_isCapital h]

theorem splitCapitals_first {capital small : Char} (h : Unicode.lower capital = [small]) :
    splitCapitals true (capital :: rest) = small :: splitCapitals false rest := by
  simp [splitCapitals, h]

theorem splitCapitals_inside {c : Char} (h : isSmall c || isDecimal c) :
    splitCapitals false (c :: rest) = c :: splitCapitals false rest := by
  obtain ⟨hlower, hupper, _, _⟩ := inside_word h
  simp [splitCapitals, hlower, hupper]

theorem capitalizeParts_underscore (atStart : Bool) :
    capitalizeParts atStart ('_' :: rest) = capitalizeParts true rest := by
  simp [capitalizeParts]

theorem capitalizeParts_first {small capital : Char} (hsmall : isSmall small)
    (h : Unicode.upper small = [capital]) :
    capitalizeParts true (small :: rest) = capital :: capitalizeParts false rest := by
  simp [capitalizeParts, isSmall_ne_underscore hsmall, h]

theorem capitalizeParts_inside {c : Char} (h : isSmall c || isDecimal c) :
    capitalizeParts false (c :: rest) = c :: capitalizeParts false rest := by
  obtain ⟨_, _, hne, _⟩ := inside_word h
  simp [capitalizeParts, hne]

/-- The characters after the first one in Pascal case come back from snake case. -/
theorem capitalizeParts_splitCapitals_rest
    (h : rest.all fun c => isSmall c || isCapital c || isDecimal c) :
    capitalizeParts false (splitCapitals false rest) = rest := by
  induction rest with
  | nil => rfl
  | cons c rest ih =>
    rw [List.all_cons, Bool.and_eq_true] at h
    obtain ⟨hc, hrest⟩ := h
    by_cases hcapital : isCapital c
    · obtain ⟨small, hlower, hupper, hsmall⟩ := lower_of_isCapital hcapital
      rw [splitCapitals_capital hcapital, splitCapitals_first hlower, capitalizeParts_underscore,
        capitalizeParts_first hsmall hupper, ih hrest]
    · have hinside : isSmall c || isDecimal c := by simpa [hcapital] using hc
      rw [splitCapitals_inside hinside, capitalizeParts_inside hinside, ih hrest]

theorem capitalizeParts_splitCapitals (h : IsPascal name) :
    capitalizeParts true (splitCapitals true name) = name := by
  obtain ⟨c, rest, rfl, hcapital, hrest⟩ := h
  obtain ⟨small, hlower, hupper, hsmall⟩ := lower_of_isCapital hcapital
  rw [splitCapitals_first hlower, capitalizeParts_first hsmall hupper,
    capitalizeParts_splitCapitals_rest hrest]

/-- Pascal case comes back to snake case, from the start of a word and from inside one. -/
theorem splitCapitals_capitalizeParts {atStart : Bool} (h : isSnakeFrom atStart name) :
    splitCapitals atStart (capitalizeParts atStart name) = name := by
  induction name generalizing atStart with
  | nil => cases atStart <;> rfl
  | cons c rest ih =>
    cases atStart with
    | true =>
      rw [isSnakeFrom, Bool.and_eq_true] at h
      obtain ⟨hsmall, hrest⟩ := h
      obtain ⟨capital, hupper, hlower, _⟩ := upper_of_isSmall hsmall
      rw [capitalizeParts_first hsmall hupper, splitCapitals_first hlower, ih hrest]
    | false =>
      by_cases hc : c = '_'
      · subst hc
        rw [isSnakeFrom, if_pos rfl] at h
        have hback := ih h
        -- the next word begins with the capital before which the underscore comes back
        cases rest with
        | nil => cases h
        | cons first word =>
          rw [isSnakeFrom, Bool.and_eq_true] at h
          obtain ⟨capital, hupper, _, hcapital⟩ := upper_of_isSmall h.1
          rw [capitalizeParts_first h.1 hupper] at hback
          rw [capitalizeParts_underscore, capitalizeParts_first h.1 hupper,
            splitCapitals_capital hcapital, hback]
      · rw [isSnakeFrom, if_neg hc, Bool.and_eq_true] at h
        rw [capitalizeParts_inside h.1, splitCapitals_inside h.1, ih h.2]

/-- A variant has the form of the field of the same words, unless words are run together. -/
theorem variantForm_eq_fieldForm (h : IsPascal name) {rule : RenameRule} (hlower : rule ≠ lowercase)
    (hupper : rule ≠ uppercase) :
    rule.variantForm name = rule.fieldForm (splitCapitals true name) := by
  have hback := capitalizeParts_splitCapitals h
  cases rule with
  | lowercase => exact absurd rfl hlower
  | uppercase => exact absurd rfl hupper
  | pascalCase => exact hback.symm
  | camelCase => exact congrArg uncapitalize hback.symm
  | snakeCase | screamingSnakeCase | kebabCase | screamingKebabCase => rfl

end Words

/-- Every rule that keeps words apart gives a variant the form that it gives to the snake case of
the variant's name, which in Pascal case is that name again; and the Pascal case of a field's name
is that name again in snake case. -/
theorem applyToVariant_eq_applyToField :
    (∀ name : String, IsPascal name.toList →
      (∀ rule : RenameRule, rule ≠ .lowercase → rule ≠ .uppercase →
        rule.applyToVariant name = rule.applyToField (snakeCase.applyToVariant name)) ∧
      pascalCase.applyToField (snakeCase.applyToVariant name) = name) ∧
    ∀ name : String, IsSnake name.toList →
      snakeCase.applyToVariant (pascalCase.applyToField name) = name := by
  constructor
  · intro name hname
    have hsnake : (snakeCase.applyToVariant name).toList = splitCapitals true name.toList :=
      String.toList_ofList
    constructor
    · intro rule hlower hupper
      rw [applyToVariant, applyToField, hsnake, variantForm_eq_fieldForm hname hlower hupper]
    · have hback := capitalizeParts_splitCapitals hname
      rw [applyToField, hsnake, fieldForm, hback, String.ofList_toList]
  · intro name hname
    have hpascal : (pascalCase.applyToField name).toList = capitalizeParts true name.toList :=
      String.toList_ofList
    have hback := splitCapitals_capitalizeParts hname
    rw [applyToVariant, hpascal, variantForm, hback, String.ofList_toList]

/-- Capitals in a row are words of one letter, and digits stay with the word before them. -/
theorem applyToVariant_eq_applyToField_server :
    IsPascal "HTTPServer2".toList ∧ IsSnake "user_id2_x".toList ∧
      kebabCase.applyToVariant "HTTPServer2" =
        kebabCase.applyToField (snakeCase.applyToVariant "HTTPServer2") ∧
      pascalCase.applyToField (snakeCase.applyToVariant "HTTPServer2") = "HTTPServer2" ∧
      snakeCase.applyToVariant (pascalCase.applyToField "user_id2_x") = "user_id2_x" := by
  have hvariant : IsPascal "HTTPServer2".toList := ⟨'H', "TTPServer2".toList, by decide⟩
  have hfield : IsSnake "user_id2_x".toList := by
    unfold IsSnake
    decide
  obtain ⟨hvariants, hfields⟩ := applyToVariant_eq_applyToField
  obtain ⟨hrules, hback⟩ := hvariants _ hvariant
  exact ⟨hvariant, hfield, hrules kebabCase (by decide) (by decide), hback, hfields _ hfield⟩

end ShapeSchema.Naming
