import Mathlib.Data.List.Induction
import ShapeSchema.Settings.File

/-!
How loading a settings file ends, whatever reads its text as a value. A text that is a value gives
settings or an error of its file, unless the value is a mapping and a key of it is no text: such a
key fails in a way that is not reported, although unknown keys count for nothing everywhere else.
What a mapping means is told by its known keys alone, and every fault names a setting that the file
speaks of.
-/

namespace ShapeSchema

open Yaml (Value)

/-! ## Looking up keys -/

def Yaml.Value.isName (name : String) : Value → Bool
  | .text content => content == name
  | _ => false

theorem lookup?_concat (key : String) (pairs : List (Value × Value)) (pair : Value × Value) :
    Value.lookup? key (pairs ++ [pair]) =
      if pair.1.isName key then some pair.2 else Value.lookup? key pairs := by
  obtain ⟨name, value⟩ := pair
  cases name <;> simp [Value.lookup?, Value.isName, List.foldl_append]

namespace Settings

def namedPairs (names : List String) (pairs : List (Value × Value)) : List (Value × Value) :=
  pairs.filter fun pair => names.any (pair.1.isName ·)

theorem namedPairs_concat (names : List String) (pairs : List (Value × Value))
    (pair : Value × Value) :
    namedPairs names (pairs ++ [pair]) =
      if names.any (pair.1.isName ·) then namedPairs names pairs ++ [pair]
      else namedPairs names pairs := by
  rw [namedPairs, List.filter_append, List.filter_cons]
  split <;> simp [namedPairs]

theorem lookup?_namedPairs {names : List String} {key : String} (hkey : key ∈ names)
    (pairs : List (Value × Value)) :
    Value.lookup? key (namedPairs names pairs) = Value.lookup? key pairs := by
  -- The last pair with a key counts, so the induction takes pairs off the end.
  induction pairs using List.reverseRecOn with
  | nil => rfl
  | append_singleton pairs pair ih =>
    rw [namedPairs_concat, lookup?_concat]
    split
    case isTrue => rw [lookup?_concat, ih]
    case isFalse hother =>
      have hname : ¬pair.1.isName key = true :=
        fun hname => hother (List.any_eq_true.mpr ⟨key, hkey, hname⟩)
      rw [ih, if_neg hname]

theorem lookup?_map {key : String} (change : Value → Value → Value) (changed : Value → Value)
    (hchange : ∀ name value, name.isName key = true → change name value = changed value)
    (pairs : List (Value × Value)) :
    Value.lookup? key (pairs.map fun pair => (pair.1, change pair.1 pair.2)) =
      (Value.lookup? key pairs).map changed := by
  induction pairs using List.reverseRecOn with
  | nil => rfl
  | append_singleton pairs pair ih =>
    rw [List.map_append, List.map_singleton, lookup?_concat, lookup?_concat, ih]
    split
    case isTrue hname => rw [hchange _ _ hname, Option.map_some]
    case isFalse => rfl

/-! ## Known keys -/

def deriveNames : List String := ["strict_objects", "cache_enabled", "default_int_kind"]

def outputNames : List String :=
  ["indent", "wrap_validator", "validation_level", "validation_action"]

def narrowed (names : List String) : Value → Value
  | .mapping pairs => .mapping (namedPairs names pairs)
  | value => value

/-- What stands at a key of the top, a section without its unknown keys. -/
def narrowedAt (key value : Value) : Value :=
  if key.isName "derive" then narrowed deriveNames value
  else if key.isName "output" then narrowed outputNames value
  else value

/-- A mapping of settings without its unknown keys, at the top and in the sections. -/
def knownPairs (pairs : List (Value × Value)) : List (Value × Value) :=
  (namedPairs ["derive", "output", "log_level"] pairs).map fun pair =>
    (pair.1, narrowedAt pair.1 pair.2)

/-- A value of a settings file without unknown keys. -/
def known : Value → Value
  | .mapping pairs => .mapping (knownPairs pairs)
  | value => value

theorem not_isName_of_isName {name other : String} {key : Value} (hname : key.isName name = true)
    (hother : name ≠ other) : ¬key.isName other = true := by
  cases key with
  | text content =>
    have hcontent : content = name := by simpa [Value.isName] using hname
    simpa [Value.isName, hcontent] using hother
  | _ => simp [Value.isName]

/-- Leaving unknown keys out changes a value only as its key asks for. -/
theorem lookup?_knownPairs {key : String} (hkey : key ∈ ["derive", "output", "log_level"])
    (changed : Value → Value)
    (hchanged : ∀ name value, name.isName key = true → narrowedAt name value = changed value)
    (pairs : List (Value × Value)) :
    Value.lookup? key (knownPairs pairs) = (Value.lookup? key pairs).map changed := by
  rw [knownPairs, lookup?_map narrowedAt changed hchanged, lookup?_namedPairs hkey]

theorem setting_namedPairs {α : Type} {names : List String} {key : String} (hkey : key ∈ names)
    (fallback : α) (read : Value → Except FaultKind α) (pairs : List (Value × Value)) :
    setting key fallback read (namedPairs names pairs) = setting key fallback read pairs := by
  rw [setting, setting, lookup?_namedPairs hkey]

theorem readDerive_namedPairs (coercions : Coercions) (pairs : List (Value × Value)) :
    coercions.readDerive (namedPairs deriveNames pairs) = coercions.readDerive pairs := by
  simp only [Coercions.readDerive, deriveNames]
  rw [setting_namedPairs (by simp), setting_namedPairs (by simp), setting_namedPairs (by simp)]

theorem readOutput_namedPairs (coercions : Coercions) (pairs : List (Value × Value)) :
    coercions.readOutput (namedPairs outputNames pairs) = coercions.readOutput pairs := by
  simp only [Coercions.readOutput, outputNames]
  rw [setting_namedPairs (by simp), setting_namedPairs (by simp), setting_namedPairs (by simp),
    setting_namedPairs (by simp)]

/-- A section says the same without the keys that its reader does not ask for. -/
theorem sectionOf_narrowed {α : Type} {key : String} {names : List String}
    {pairs others : List (Value × Value)} {read : List (Value × Value) → Checked α}
    (hlookup : Value.lookup? key others = (Value.lookup? key pairs).map (narrowed names))
    (hread : ∀ inner, read (namedPairs names inner) = read inner) (fallback : α) :
    sectionOf key fallback read others = sectionOf key fallback read pairs := by
  rw [sectionOf, sectionOf, hlookup]
  cases hvalue : Value.lookup? key pairs with
  | none => rfl
  | some value => cases value <;> simp [narrowed, hread]

theorem readSettings_knownPairs (coercions : Coercions) (pairs : List (Value × Value)) :
    coercions.readSettings (knownPairs pairs) = coercions.readSettings pairs := by
  have hderive : Value.lookup? "derive" (knownPairs pairs) =
      (Value.lookup? "derive" pairs).map (narrowed deriveNames) := by
    apply lookup?_knownPairs (by simp)
    intro key value hkey
    rw [narrowedAt, if_pos hkey]
  have houtput : Value.lookup? "output" (knownPairs pairs) =
      (Value.lookup? "output" pairs).map (narrowed outputNames) := by
    apply lookup?_knownPairs (by simp)
    intro key value hkey
    rw [narrowedAt, if_neg (not_isName_of_isName hkey (by decide)), if_pos hkey]
  have hlevel : Value.lookup? "log_level" (knownPairs pairs) =
      (Value.lookup? "log_level" pairs).map id := by
    apply lookup?_knownPairs (by simp)
    intro key value hkey
    rw [narrowedAt, if_neg (not_isName_of_isName hkey (by decide)),
      if_neg (not_isName_of_isName hkey (by decide)), id]
  simp only [Coercions.readSettings]
  rw [sectionOf_narrowed hderive (readDerive_namedPairs coercions),
    sectionOf_narrowed houtput (readOutput_namedPairs coercions),
    setting, setting, hlevel, Option.map_id_fun, id]

/-! ## Faults -/

/-- What a file says about the setting at a path. -/
def valueAt? : List String → List (Value × Value) → Option Value
  | [], _ => none
  | [key], pairs => Value.lookup? key pairs
  | key :: path, pairs =>
    match Value.lookup? key pairs with
    | some (.mapping inner) => valueAt? path inner
    | _ => none

def paths : List (List String) :=
  ["derive"] :: deriveNames.map (["derive", ·]) ++
    ["output"] :: outputNames.map (["output", ·]) ++ [["log_level"]]

/-- Whether there are faults only for a reason, and each of them is of a kind. -/
def Blames {α : Type} (P : Fault → Prop) (checked : Checked α) : Prop :=
  ∀ faults, checked = .error faults → faults ≠ [] ∧ ∀ fault ∈ faults, P fault

section Blames

variable {α β : Type} {P Q : Fault → Prop}

theorem Blames.mono {checked : Checked α} (hchecked : Blames P checked)
    (himp : ∀ fault, P fault → Q fault) : Blames Q checked :=
  fun faults hfaults =>
    ⟨(hchecked faults hfaults).1,
      fun fault hfault => himp fault ((hchecked faults hfaults).2 fault hfault)⟩

theorem Blames.both {first : Checked α} {second : Checked β} (hfirst : Blames P first)
    (hsecond : Blames P second) : Blames P (both first second) := by
  intro faults hfaults
  cases first <;> cases second <;>
    simp only [ShapeSchema.both, reduceCtorEq, Except.error.injEq] at hfaults
  case ok.error => exact hsecond _ (by rw [hfaults])
  case error.ok => exact hfirst _ (by rw [hfaults])
  case error.error these those =>
    obtain ⟨hsome, hthese⟩ := hfirst these rfl
    obtain ⟨-, hthose⟩ := hsecond those rfl
    subst hfaults
    refine ⟨by simp [hsome], fun fault hfault => ?_⟩
    obtain hfault | hfault := List.mem_append.mp hfault
    · exact hthese fault hfault
    · exact hthose fault hfault

theorem Blames.map {checked : Checked α} (hchecked : Blames P checked) (f : α → β) :
    Blames P (checked.map f) := by
  intro faults hfaults
  cases checked with
  | ok => simp [Except.map] at hfaults
  | error others => exact hchecked _ (by simpa [Except.map] using hfaults)

end Blames

theorem blames_setting {α : Type} (key : String) (fallback : α) (read : Value → Except FaultKind α)
    (pairs : List (Value × Value)) :
    Blames (fun fault => fault.path = [key] ∧ (valueAt? [key] pairs).isSome = true)
      (setting key fallback read pairs) := by
  intro faults hfaults
  unfold setting at hfaults
  split at hfaults
  · cases hfaults
  · rename_i value hvalue
    cases hread : read value with
    | ok => simp [hread, Except.mapError] at hfaults
    | error kind =>
      simp only [hread, Except.mapError, Except.error.injEq] at hfaults
      subst hfaults
      simp [valueAt?, hvalue]

theorem blames_sectionOf {α : Type} (key : String) {names : List String} (fallback : α)
    {read : List (Value × Value) → Checked α} (pairs : List (Value × Value))
    (hread : ∀ inner, Blames (fun fault => ∃ name ∈ names, fault.path = [name] ∧
      (valueAt? [name] inner).isSome = true) (read inner)) :
    Blames (fun fault => (fault.path = [key] ∨ ∃ name ∈ names, fault.path = [key, name]) ∧
      (valueAt? fault.path pairs).isSome = true) (sectionOf key fallback read pairs) := by
  intro faults hfaults
  unfold sectionOf at hfaults
  split at hfaults
  · cases hfaults
  · rename_i inner hinner
    cases hfound : read inner with
    | ok => simp [hfound, Except.mapError] at hfaults
    | error others =>
      obtain ⟨hsome, hothers⟩ := hread inner others hfound
      simp only [hfound, Except.mapError, Except.error.injEq] at hfaults
      subst hfaults
      refine ⟨by simpa using hsome, fun fault hfault => ?_⟩
      obtain ⟨other, hother, rfl⟩ := List.mem_map.mp hfault
      obtain ⟨name, hname, hpath, hvalue⟩ := hothers other hother
      have hplace : (other.inSection key).path = [key, name] := by rw [Fault.inSection, hpath]
      refine ⟨Or.inr ⟨name, hname, hplace⟩, ?_⟩
      rw [hplace, valueAt?, hinner]
      · exact hvalue
      · simp
  · rename_i value _ hvalue
    cases hfaults
    simp [valueAt?, hvalue]

theorem blames_setting_of_mem {α : Type} {names : List String} {key : String} (hkey : key ∈ names)
    (fallback : α) (read : Value → Except FaultKind α) (pairs : List (Value × Value)) :
    Blames (fun fault => ∃ name ∈ names, fault.path = [name] ∧
      (valueAt? [name] pairs).isSome = true) (setting key fallback read pairs) :=
  (blames_setting key fallback read pairs).mono fun _ hfault => ⟨key, hkey, hfault⟩

theorem blames_readDerive (coercions : Coercions) (pairs : List (Value × Value)) :
    Blames (fun fault => ∃ name ∈ deriveNames, fault.path = [name] ∧
      (valueAt? [name] pairs).isSome = true) (coercions.readDerive pairs) := by
  unfold Coercions.readDerive
  apply Blames.map
  apply Blames.both
  · apply blames_setting_of_mem
    decide
  apply Blames.both <;> (apply blames_setting_of_mem; decide)

theorem blames_readOutput (coercions : Coercions) (pairs : List (Value × Value)) :
    Blames (fun fault => ∃ name ∈ outputNames, fault.path = [name] ∧
      (valueAt? [name] pairs).isSome = true) (coercions.readOutput pairs) := by
  unfold Coercions.readOutput
  apply Blames.map
  apply Blames.both
  · apply blames_setting_of_mem
    decide
  apply Blames.both
  · apply blames_setting_of_mem
    decide
  apply Blames.both <;> (apply blames_setting_of_mem; decide)

/-- Every fault is at a setting, about a value that the file gives for it. -/
theorem blames_readSettings (coercions : Coercions) (pairs : List (Value × Value)) :
    Blames (fun fault => fault.path ∈ paths ∧ (valueAt? fault.path pairs).isSome = true)
      (coercions.readSettings pairs) := by
  have hderive := blames_sectionOf "derive" Settings.default.derive pairs
    (blames_readDerive coercions)
  have houtput := blames_sectionOf "output" Settings.default.output pairs
    (blames_readOutput coercions)
  have hlevel := blames_setting "log_level" Settings.default.logLevel
    (readChoice LogLevel.all (·.name)) pairs
  refine Blames.map ((hderive.mono ?_).both ((houtput.mono ?_).both (hlevel.mono ?_))) _
  · rintro fault ⟨hpath | ⟨name, hname, hpath⟩, hvalue⟩
    · exact ⟨by simp [paths, hpath], hvalue⟩
    · exact ⟨by simp [paths, hpath, hname], hvalue⟩
  · rintro fault ⟨hpath | ⟨name, hname, hpath⟩, hvalue⟩
    · exact ⟨by simp [paths, hpath], hvalue⟩
    · exact ⟨by simp [paths, hpath, hname], hvalue⟩
  · rintro fault ⟨hpath, hvalue⟩
    rw [hpath]
    exact ⟨by decide, hvalue⟩

/-! ## Loading -/

/-- Whether loading a file ended with settings or with an error of that file. -/
def isReported (path : String) : Except LoadFailure Settings → Bool
  | .ok _ => true
  | .error (.config error) => error.path == path
  | .error _ => false

/-- Whether all keys of a mapping are texts. Other values have no keys. -/
def hasTextKeys : Value → Bool
  | .mapping pairs => pairs.all (isTextKey ·.1)
  | _ => true

theorem isReported_ofFileValue (coercions : Coercions) (path : String) (value : Value) :
    isReported path (ofFileValue coercions path value) = hasTextKeys value := by
  cases value with
  | mapping pairs =>
    rw [ofFileValue, hasTextKeys]
    split
    case isTrue hkeys =>
      cases hfound : coercions.readSettings pairs <;> simp [Except.mapError, isReported, hkeys]
    case isFalse hkeys => simpa [isReported] using hkeys
  | _ => simp [ofFileValue, isReported, hasTextKeys]

theorem isTextKey_of_mem_namedPairs {names : List String} {pairs : List (Value × Value)}
    {pair : Value × Value} (hpair : pair ∈ namedPairs names pairs) : isTextKey pair.1 = true := by
  obtain ⟨name, -, hname⟩ := List.any_eq_true.mp (List.mem_filter.mp hpair).2
  cases hkey : pair.1 <;> simp_all [Value.isName, isTextKey]

theorem ofFileValue_known (coercions : Coercions) (path : String) {value : Value}
    (hkeys : hasTextKeys value = true) :
    ofFileValue coercions path (known value) = ofFileValue coercions path value := by
  cases value with
  | mapping pairs =>
    have hknown : (knownPairs pairs).all (isTextKey ·.1) = true := by
      simp only [knownPairs, List.all_map, List.all_eq_true, Function.comp_apply]
      exact fun pair hpair => isTextKey_of_mem_namedPairs hpair
    rw [hasTextKeys] at hkeys
    rw [known, ofFileValue, ofFileValue, if_pos hknown, if_pos hkeys, readSettings_knownPairs]
  | _ => rfl

theorem mapping_of_invalid {coercions : Coercions} {path : String} {value : Value}
    {faults : List Fault}
    (hfaults : ofFileValue coercions path value = .error (.config ⟨.invalid faults, path⟩)) :
    ∃ pairs, value = .mapping pairs ∧ coercions.readSettings pairs = .error faults := by
  cases value with
  | mapping pairs =>
    rw [ofFileValue] at hfaults
    split at hfaults
    case isTrue =>
      cases hfound : coercions.readSettings pairs <;> simp [hfound, Except.mapError] at hfaults
      exact ⟨pairs, rfl, by rw [hfound, hfaults]⟩
    case isFalse => cases hfaults
  | _ => simp [ofFileValue] at hfaults

/-- Loading a text that is one value, or none, ends with settings or with an error of the file
unless the value is a mapping with a key at the top that is no text. Unknown keys make no difference
then, and what is reported as invalid is a value that the file gives for a setting. -/
theorem load_reports (coercions : Coercions) (read : String → Except Yaml.Failure Value)
    (path text : String) (hread : read text ≠ .error .outOfRange) :
    (isReported path (loadWith coercions read path (some text)) = true ↔
      ∀ value, read text = .ok value → hasTextKeys value = true) ∧
    (∀ value, read text = .ok value → hasTextKeys value = true →
      loadWith coercions read path (some text) = ofFileValue coercions path (known value)) ∧
    (∀ faults,
      loadWith coercions read path (some text) = .error (.config ⟨.invalid faults, path⟩) →
        ∃ pairs, read text = .ok (.mapping pairs) ∧ faults ≠ [] ∧
          ∀ fault ∈ faults, fault.path ∈ paths ∧ (valueAt? fault.path pairs).isSome = true) := by
  rw [loadWith]
  cases hvalue : read text with
  | error failure =>
    cases failure with
    | malformed => simp [isReported]
    | outOfRange => exact absurd hvalue hread
  | ok value =>
    refine ⟨by simp [isReported_ofFileValue], ?_, ?_⟩
    · intro found hfound hkeys
      cases hfound
      exact (ofFileValue_known coercions path hkeys).symm
    · intro faults hfaults
      obtain ⟨pairs, rfl, hpairs⟩ := mapping_of_invalid hfaults
      exact ⟨pairs, rfl, blames_readSettings coercions pairs faults hpairs⟩

def unknownKeysText : String :=
  "output:\n  indent: 4\n  color: red\nextra: [1]\n"

theorem load_reports_unknownKeys :
    ∃ value, Value.read 2 unknownKeysText = .ok value ∧
      load "c.yaml" (some unknownKeysText) = ofFileValue .lenient "c.yaml" (known value) := by
  have hfound : (Value.read 2 unknownKeysText).toOption.any hasTextKeys = true := by
    decide +kernel
  cases hvalue : Value.read 2 unknownKeysText with
  | error => simp [hvalue, Except.toOption] at hfound
  | ok value =>
    have hread : Value.read 2 unknownKeysText ≠ .error .outOfRange := by simp [hvalue]
    have hkeys : hasTextKeys value = true := by simpa [hvalue, Except.toOption] using hfound
    have hload := load_reports .lenient (Value.read 2) "c.yaml" unknownKeysText hread
    exact ⟨value, rfl, hload.2.1 value hvalue hkeys⟩

/-- A number among the keys at the top ends loading in a way that is not reported. -/
theorem load_unreported :
    (Value.read 2 "1: x\n").isOk = true ∧
      isReported "c.yaml" (load "c.yaml" (some "1: x\n")) = false := by
  decide +kernel

end Settings
end ShapeSchema
