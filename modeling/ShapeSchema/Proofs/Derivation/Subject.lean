import Mathlib.Data.List.Duplicate
import ShapeSchema.Proofs.Derivation.Closure

/-!
What the checks of a derivation look at, and when a defect is really there. A shape is checked where
it stands; the constraints of a field, of a variant and of the root are checked one step before the
shape that they constrain is expanded.
-/

namespace ShapeSchema

/-- What a check looks at: a shape, a shape with constraints of its own, or a variant. -/
inductive Subject where
  | shape (shape : Shape)
  | constrained (shape : Shape) (constraints : Constraints)
  | variant (variant : Variant)

def Field.subject (field : Field) : List Step × Subject :=
  ([.member field.name], .constrained field.shape field.constraints)

/-- What is checked in a payload, beside its shapes. A single payload has the constraints of its
variant. -/
def Payload.subjects (c : Constraints) : Payload → List (List Step × Subject)
  | newtype shape => [([], .constrained shape c)]
  | struct fields => fields.map Field.subject
  | _ => []

def Variant.subjects (variant : Variant) : List (List Step × Subject) :=
  ([.member variant.name], .variant variant) ::
    (variant.payload.subjects variant.constraints).map fun (steps, subject) =>
      (.member variant.name :: steps, subject)

def Declaration.subjects : Declaration → List (List Step × Subject)
  | struct type => type.fields.map Field.subject
  | tuple _ => []
  | enum type => type.variants.flatMap Variant.subjects

/-- What is checked when a shape is expanded, with the steps to it: the shape itself, and the
constraints in the type that it refers to. -/
def Graph.subjects (graph : Graph) (shape : Shape) : List (List Step × Subject) :=
  ([], .shape shape) :: match shape with
    | .declared index => ((graph.declaration? index).map Declaration.subjects).getD []
    | _ => []

inductive Constraints.Malformed (c : Constraints) : Defect → Prop
  | twoLowerBounds (inclusive : c.minInclusive.isSome) (exclusive : c.minExclusive.isSome) :
      Malformed c .twoLowerBounds
  | twoUpperBounds (inclusive : c.maxInclusive.isSome) (exclusive : c.maxExclusive.isSome) :
      Malformed c .twoUpperBounds
  | boundNotNumber {name : String} {value : Json} (isBound : (name, some value) ∈ c.bounds)
      (notNumber : ∀ number, value ≠ .num number) :
      Malformed c (.boundNotNumber name value.typeName)
  | boundNotFinite {name : String} {number : Number}
      (isBound : (name, some (.num number)) ∈ c.bounds) (infinite : number.isFinite = false) :
      Malformed c (.boundNotFinite name number)
  | emptyRange {lower upper : Limit} (isLower : c.lower? = some lower)
      (isUpper : c.upper? = some upper) (empty : lower.excludeAll upper) :
      Malformed c (.emptyRange lower.value upper.value)
  | emptyRename {key : String} (isKey : c.rename = some key)
      (blank : key.toList.all Unicode.isBlank) : Malformed c .emptyRename

/-- Whether a defect is there in what is checked. -/
inductive Context.Present (context : Context) : Subject → Defect → Prop
  | unresolvedParameter (label : Nat) (name : String) :
      Present context (.shape (.generic label name)) (.unresolvedParameter name)
  | notAShape (value : Json) : Present context (.shape (.raw value)) (.notAShape value)
  | nothing {index : Nat} (undeclared : context.graph.declaration? index = none) :
      Present context (.shape (.declared index)) (.notAShape .null)
  | mapKey {label : Nat} {key : PrimitiveKind} {value : Shape} (notText : key.isText = false) :
      Present context (.shape (.map label key value)) (.mapKey key)
  | duplicateProperty {index : Nat} {type : Struct} {key : String}
      (declared : context.graph.declaration? index = some (.struct type))
      (twice : List.Duplicate key (fieldKeys type.renameAll type.fields)) :
      Present context (.shape (.declared index)) (.duplicateProperty key)
  | duplicateVariant {index : Nat} {type : Enum} {key : String}
      (declared : context.graph.declaration? index = some (.enum type))
      (twice : List.Duplicate key (variantKeys type.renameAll type.variants)) :
      Present context (.shape (.declared index)) (.duplicateVariant key)
  | noVariants {index : Nat} {type : Enum}
      (declared : context.graph.declaration? index = some (.enum type))
      (empty : type.variants = []) : Present context (.shape (.declared index)) .noVariants
  | emptyTag {index : Nat} {type : Enum}
      (declared : context.graph.declaration? index = some (.enum type))
      (tagging : type.tagging = .internal "") :
      Present context (.shape (.declared index)) .emptyTag
  | emptyTagOrContent {index : Nat} {type : Enum} {tag content : String}
      (declared : context.graph.declaration? index = some (.enum type))
      (tagging : type.tagging = .adjacent tag content) (empty : tag = "" ∨ content = "") :
      Present context (.shape (.declared index)) .emptyTagOrContent
  | tagEqualsContent {index : Nat} {type : Enum} {tag : String}
      (declared : context.graph.declaration? index = some (.enum type))
      (tagging : type.tagging = .adjacent tag tag) :
      Present context (.shape (.declared index)) (.tagEqualsContent tag)
  | unmergeablePayload {index : Nat} {type : Enum} {tag : String} {variant : Variant}
      (declared : context.graph.declaration? index = some (.enum type))
      (tagging : type.tagging = .internal tag) (isVariant : variant ∈ type.variants)
      (unmergeable : context.isMergeable variant.payload = false) :
      Present context (.shape (.declared index)) (.unmergeablePayload
        (variantKey variant.name variant.constraints.rename type.renameAll))
  | tagCollision {index : Nat} {type : Enum} {tag : String} {variant : Variant}
      (declared : context.graph.declaration? index = some (.enum type))
      (tagging : type.tagging = .internal tag) (isVariant : variant ∈ type.variants)
      (isProperty : tag ∈ variant.payload.keys context.graph.structKeys) :
      Present context (.shape (.declared index)) (.tagCollision
        (variantKey variant.name variant.constraints.rename type.renameAll) tag)
  | malformed {shape : Shape} {c : Constraints} {defect : Defect} (malformed : c.Malformed defect) :
      Present context (.constrained shape c) defect
  | boundsOnNonNumeric {shape : Shape} {c : Constraints} (bounds : c.hasBounds)
      (notNumber : ∀ kind, shape.unwrapped = .primitive kind → kind.isNumeric = false) :
      Present context (.constrained shape c)
        (.boundsOnNonNumeric (context.graph.describe shape.unwrapped))
  | boundsOnVariant {variant : Variant} (bounds : variant.constraints.hasBounds)
      (notSingle : ∀ shape, variant.payload ≠ .newtype shape) :
      Present context (.variant variant) .boundsOnVariant
  | duplicateInVariant {variant : Variant} {fields : List Field} {key : String}
      (payload : variant.payload = .struct fields)
      (twice : List.Duplicate key (fieldKeys none fields)) :
      Present context (.variant variant) (.duplicateProperty key)

/-- What is checked inside a declared type is its constraints, and no shape. -/
theorem Declaration.shape_not_mem_subjects (type : Declaration) (steps : List Step)
    (shape : Shape) : (steps, Subject.shape shape) ∉ type.subjects := by
  cases type with
  | struct type => simp [subjects, Field.subject]
  | tuple type => simp [subjects]
  | enum type =>
    intro hmem
    obtain ⟨variant, _, hmem⟩ := List.mem_flatMap.mp hmem
    rcases List.mem_cons.mp hmem with heq | hmem
    · cases heq
    · obtain ⟨⟨further, subject⟩, hsubject, heq⟩ := List.mem_map.mp hmem
      cases heq
      cases hpayload : variant.payload <;>
        simp [hpayload, Payload.subjects, Field.subject] at hsubject

/-- Variants are checked inside the enum that they are of, below their names. -/
theorem Declaration.of_variant_mem_subjects {type : Declaration} {steps : List Step}
    {variant : Variant} (hmem : (steps, Subject.variant variant) ∈ type.subjects) :
    ∃ owner, type = .enum owner ∧ variant ∈ owner.variants ∧
      steps = [.member variant.name] := by
  cases type with
  | struct type => simp [subjects, Field.subject] at hmem
  | tuple type => simp [subjects] at hmem
  | enum type =>
    obtain ⟨other, hother, hmem⟩ := List.mem_flatMap.mp hmem
    rcases List.mem_cons.mp hmem with heq | hmem
    · cases heq
      exact ⟨type, rfl, hother, rfl⟩
    · obtain ⟨⟨further, subject⟩, hsubject, heq⟩ := List.mem_map.mp hmem
      cases heq
      cases hpayload : other.payload <;>
        simp [hpayload, Payload.subjects, Field.subject] at hsubject

section Members

variable {graph : Graph} {target : Shape} {steps : List Step}

/-- The only shape that is checked when a shape is expanded is this one. -/
theorem Graph.of_shape_mem_subjects {shape : Shape}
    (hmem : (steps, Subject.shape shape) ∈ graph.subjects target) :
    steps = [] ∧ shape = target := by
  rcases List.mem_cons.mp hmem with heq | hmem
  · cases heq
    exact ⟨rfl, rfl⟩
  · cases target with
    | declared index =>
      cases hfound : graph.declaration? index with
      | none => simp [hfound] at hmem
      | some type =>
        simp only [hfound, Option.map_some, Option.getD_some] at hmem
        exact absurd hmem (type.shape_not_mem_subjects _ _)
    | _ => cases hmem

theorem Graph.of_variant_mem_subjects {variant : Variant}
    (hmem : (steps, Subject.variant variant) ∈ graph.subjects target) :
    ∃ index type, target = .declared index ∧ graph.declaration? index = some (.enum type) ∧
      variant ∈ type.variants ∧ steps = [.member variant.name] := by
  rcases List.mem_cons.mp hmem with heq | hmem
  · cases heq
  · cases target with
    | declared index =>
      cases hfound : graph.declaration? index with
      | none => simp [hfound] at hmem
      | some type =>
        simp only [hfound, Option.map_some, Option.getD_some] at hmem
        obtain ⟨owner, rfl, hvariant, rfl⟩ := Declaration.of_variant_mem_subjects hmem
        exact ⟨index, owner, rfl, hfound, hvariant, rfl⟩
    | _ => cases hmem

end Members

namespace Context.Present

variable {context : Context} {target : Shape} {steps : List Step} {subject : Subject} {key : String}
  (hsubject : (steps, subject) ∈ context.graph.subjects target)
include hsubject

/-- The keys of an enum are refused as part of the enum. -/
theorem of_duplicateVariant (hpresent : context.Present subject (.duplicateVariant key)) :
    ∃ index type, target = .declared index ∧ steps = [] ∧
      context.graph.declaration? index = some (.enum type) ∧
        List.Duplicate key (variantKeys type.renameAll type.variants) := by
  cases hpresent with
  | @duplicateVariant index type _ hfound htwice =>
    obtain ⟨hsteps, rfl⟩ := Graph.of_shape_mem_subjects hsubject
    exact ⟨index, type, rfl, hsteps, hfound, htwice⟩
  | malformed hmalformed => cases hmalformed

/-- The keys of fields are refused as part of a struct, or of the variant that has them. -/
theorem of_duplicateProperty (hpresent : context.Present subject (.duplicateProperty key)) :
    ∃ index, target = .declared index ∧
      ((∃ type, steps = [] ∧ context.graph.declaration? index = some (.struct type) ∧
          List.Duplicate key (fieldKeys type.renameAll type.fields)) ∨
        ∃ type variant fields, steps = [.member variant.name] ∧
          context.graph.declaration? index = some (.enum type) ∧ variant ∈ type.variants ∧
          variant.payload = .struct fields ∧ List.Duplicate key (fieldKeys none fields)) := by
  cases hpresent with
  | @duplicateProperty index type _ hfound htwice =>
    obtain ⟨hsteps, rfl⟩ := Graph.of_shape_mem_subjects hsubject
    exact ⟨index, rfl, .inl ⟨type, hsteps, hfound, htwice⟩⟩
  | @duplicateInVariant variant fields _ hpayload htwice =>
    obtain ⟨index, type, rfl, hfound, hvariant, rfl⟩ := Graph.of_variant_mem_subjects hsubject
    exact ⟨index, rfl, .inr ⟨type, variant, fields, rfl, hfound, hvariant, hpayload, htwice⟩⟩
  | malformed hmalformed => cases hmalformed

end Context.Present

section Errors

variable {ε α β : Type}

theorem bind_eq_error {x : Except ε α} {f : α → Except ε β} {e : ε} :
    x >>= f = .error e ↔ x = .error e ∨ ∃ a, x = .ok a ∧ f a = .error e := by
  cases x with
  | error given =>
    constructor
    · intro h
      cases h
      exact .inl rfl
    · rintro (h | ⟨_, h, _⟩)
      · cases h
        rfl
      · cases h
  | ok a =>
    constructor
    · intro h
      exact .inr ⟨a, rfl, h⟩
    · rintro (h | ⟨_, h, hf⟩)
      · cases h
      · cases h
        exact hf

/-- A traversal fails with an error of one of its steps. -/
theorem forM_eq_error {f : α → Except ε Unit} {xs : List α} {e : ε} (h : xs.forM f = .error e) :
    ∃ x ∈ xs, f x = .error e := by
  induction xs with
  | nil => cases h
  | cons x xs ih =>
    rcases bind_eq_error.mp h with hhead | ⟨_, _, hrest⟩
    · exact ⟨x, List.mem_cons_self, hhead⟩
    · obtain ⟨y, hmem, hy⟩ := ih hrest
      exact ⟨y, List.mem_cons_of_mem x hmem, hy⟩

theorem mapM_eq_error {f : α → Except ε β} {xs : List α} {e : ε} (h : xs.mapM f = .error e) :
    ∃ x ∈ xs, f x = .error e := by
  induction xs with
  | nil => cases h
  | cons x xs ih =>
    rw [List.mapM_cons] at h
    rcases bind_eq_error.mp h with hhead | ⟨_, _, hrest⟩
    · exact ⟨x, List.mem_cons_self, hhead⟩
    · rcases bind_eq_error.mp hrest with hmore | ⟨_, _, hlast⟩
      · obtain ⟨y, hmem, hy⟩ := ih hmore
        exact ⟨y, List.mem_cons_of_mem x hmem, hy⟩
      · cases hlast

theorem located_eq_error {place : Location} {x : Except Defect α} {e : SchemaError} :
    (Context.located place x : Except SchemaError α) = .error e ↔
      ∃ defect, x = .error defect ∧ e = ⟨defect, place⟩ := by
  cases x with
  | ok a =>
    constructor
    · intro h
      cases h
    · rintro ⟨_, h, _⟩
      cases h
  | error defect =>
    constructor
    · intro h
      cases h
      exact ⟨defect, rfl, rfl⟩
    · rintro ⟨_, h, rfl⟩
      cases h
      rfl

theorem guarded_eq_error {P : Prop} [Decidable P] {place : Location} {defect : Defect}
    {x : Except SchemaError α} {e : SchemaError} :
    (if P then (do Context.fail place defect; x) else x) = .error e ↔
      P ∧ e = ⟨defect, place⟩ ∨ ¬ P ∧ x = .error e := by
  by_cases hP : P
  · rw [if_pos hP]
    constructor
    · intro h
      cases h
      exact .inl ⟨hP, rfl⟩
    · rintro (⟨_, rfl⟩ | ⟨hnot, _⟩)
      · rfl
      · exact absurd hP hnot
  · rw [if_neg hP]
    constructor
    · intro h
      exact .inr ⟨hP, h⟩
    · rintro (⟨hyes, _⟩ | ⟨_, h⟩)
      · exact absurd hyes hP
      · exact h

end Errors

/-- A bound that is refused is not a finite number. -/
theorem Constraints.malformed_of_checkBound {c : Constraints} {bound : String × Option Json}
    (hmem : bound ∈ c.bounds) {defect : Defect} (hbound : checkBound bound = .error defect) :
    c.Malformed defect := by
  unfold checkBound at hbound
  split at hbound
  · cases hbound
  · next name value =>
    split at hbound
    · cases hbound
    · next hinfinite =>
      cases hbound
      exact .boundNotFinite hmem (eq_false_of_ne_true hinfinite)
  · next name value hnumber =>
    cases hbound
    exact .boundNotNumber hmem hnumber

theorem Constraints.malformed_of_checkRename {c : Constraints} {defect : Defect}
    (hrename : (match c.rename with
      | some key => if key.toList.all Unicode.isBlank then throw Defect.emptyRename else pure ()
      | _ => pure () : Except Defect Unit) = .error defect) : c.Malformed defect := by
  split at hrename
  · next key hkey =>
    split at hrename
    · next hblank =>
      cases hrename
      exact .emptyRename hkey hblank
    · cases hrename
  · cases hrename

/-- Constraints that are refused have the defect for which they are. -/
theorem Constraints.malformed_of_check {c : Constraints} {defect : Defect}
    (hcheck : c.check = .error defect) : c.Malformed defect := by
  by_cases hlower : c.minInclusive.isSome ∧ c.minExclusive.isSome
  · simp only [check, if_pos hlower] at hcheck
    cases hcheck
    exact .twoLowerBounds hlower.1 hlower.2
  by_cases hupper : c.maxInclusive.isSome ∧ c.maxExclusive.isSome
  · simp only [check, if_neg hlower, if_pos hupper] at hcheck
    cases hcheck
    exact .twoUpperBounds hupper.1 hupper.2
  simp only [check, if_neg hlower, if_neg hupper] at hcheck
  rcases bind_eq_error.mp hcheck with hbounds | ⟨_, _, hrest⟩
  · obtain ⟨bound, hmem, hbound⟩ := forM_eq_error hbounds
    exact malformed_of_checkBound hmem hbound
  split at hrest
  · next lower upper hrange =>
    obtain ⟨hlow, hhigh⟩ := Prod.mk.inj hrange
    split at hrest
    · next hempty =>
      cases hrest
      exact .emptyRange hlow hhigh hempty
    · exact malformed_of_checkRename hrest
  · exact malformed_of_checkRename hrest

end ShapeSchema
