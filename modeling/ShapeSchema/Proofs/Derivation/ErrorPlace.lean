import ShapeSchema.Proofs.Derivation.Closure
import ShapeSchema.Proofs.Derivation.Subject

/-!
Where a derivation fails. The place of an error is the label of the root and the steps of a walk
from it, which expands no nominal node twice, and the defect that is reported is there at the end of
the walk. Each rule fails at one of its own subjects or because a part fails one or more steps further.
-/

namespace ShapeSchema

namespace Location

def extend (place : Location) (steps : List Step) : Location :=
  { place with steps := place.steps ++ steps }

theorem extend_nil (place : Location) : place.extend [] = place := by
  rw [extend, List.append_nil]

theorem extend_extend (place : Location) (steps more : List Step) :
    (place.extend steps).extend more = place.extend (steps ++ more) := by
  simp only [extend, List.append_assoc]

theorem extend_push (place : Location) (step : Step) (steps : List Step) :
    (place.push step).extend steps = place.extend (step :: steps) :=
  place.extend_extend [step] steps

/-- The text of a place is its label and then the texts of its steps. -/
theorem text_eq (location : Location) :
    location.text = location.origin ++ String.join (location.steps.map Step.text) := by
  have hfold : ∀ (steps : List Step) (before : String),
      steps.foldl (fun text step => text ++ step.text) before =
        before ++ String.join (steps.map Step.text) := by
    intro steps
    induction steps with
    | nil => simp
    | cons step rest ih =>
      intro before
      rw [List.foldl_cons, ih, List.map_cons, String.join_cons, String.append_assoc]
  exact hfold location.steps location.origin

end Location

theorem orElseName_ne_empty (name : String) {fallback : String} (hfallback : fallback ≠ "") :
    orElseName name fallback ≠ "" := by
  unfold orElseName
  split
  · exact hfallback
  · next hname => exact hname

theorem Json.typeName_ne_empty (value : Json) : value.typeName ≠ "" := by
  cases value with
  | num number => cases number <;> simp [typeName]
  | _ => simp [typeName]

/-- Every shape has a label that says something. -/
theorem Graph.describe_ne_empty (graph : Graph) (shape : Shape) : graph.describe shape ≠ "" := by
  cases shape with
  | primitive kind => cases kind <;> simp [describe, PrimitiveKind.name]
  | newtype label name inner => exact orElseName_ne_empty name (by decide)
  | unit name => exact orElseName_ne_empty name (by decide)
  | generic label name => exact orElseName_ne_empty name (by decide)
  | raw value => exact value.typeName_ne_empty
  | declared index =>
    cases hfound : graph.declaration? index with
    | none => simp [describe, hfound]
    | some type =>
      simp only [describe, hfound, Option.map_some, Option.getD_some]
      cases type with
      | struct type => exact orElseName_ne_empty type.name (by decide)
      | tuple type => exact orElseName_ne_empty (type.name.getD "") (by decide)
      | enum type => exact orElseName_ne_empty type.name (by decide)
  | _ => simp [describe]

namespace Tagging

/-- Only a tag beside a payload is refused: where the payload cannot have one, or where it has a
property of this name. -/
theorem encode_eq_error {tagging : Tagging} {key : String} {mergeable : Bool} {d : Document}
    (hd : Schema.IsTyped d) {defect : Defect}
    (hfail : tagging.encode ⟨key, some (.obj d), mergeable⟩ = .error defect) :
    ∃ tag, tagging = .internal tag ∧
      (mergeable = false ∧ defect = .unmergeablePayload key ∨
        mergeable ∧ (propertiesOf d).has tag ∧ defect = .tagCollision key tag) := by
  cases tagging with
  | internal tag =>
    refine ⟨tag, rfl, ?_⟩
    cases mergeable with
    | false =>
      cases hfail
      exact .inl ⟨rfl, rfl⟩
    | true =>
      simp only [encode, if_true, Schema.mergeTag_of_isTyped hd] at hfail
      split at hfail
      · next hhas =>
        cases hfail
        exact .inr ⟨rfl, hhas, rfl⟩
      · cases hfail
  | _ => cases hfail

theorem encodeUnion_eq_error {tagging : Tagging} {encoded : List EncodedVariant} {defect : Defect}
    (hfail : tagging.encodeUnion encoded = .error defect) :
    tagging.check = .error defect ∨ encoded = [] ∧ defect = .noVariants ∨
      ∃ v ∈ encoded, tagging.encode v = .error defect := by
  rcases bind_eq_error.mp hfail with hcheck | ⟨_, _, hfail⟩
  · exact .inl hcheck
  cases encoded with
  | nil =>
    cases hfail
    exact .inr (.inl ⟨rfl, rfl⟩)
  | cons first rest =>
    rcases bind_eq_error.mp hfail with hencode | ⟨_, _, hlast⟩
    · exact .inr (.inr (mapM_eq_error hencode))
    · cases hlast

end Tagging

namespace Context

/-- Whether an error has a reason: a part fails at the place to which its steps lead, or a defect is
there in something that is checked, and reported where that stands. -/
inductive FailsWithin (context : Context) (child : Shape → Location → Except SchemaError Document)
    (parts : List (List Step × Shape)) (subjects : List (List Step × Subject)) (place : Location) :
    SchemaError → Prop
  | part {steps : List Step} {shape : Shape} {error : SchemaError}
      (isPart : (steps, shape) ∈ parts) (failed : child shape (place.extend steps) = .error error) :
      FailsWithin context child parts subjects place error
  | subject {steps : List Step} {subject : Subject} {defect : Defect}
      (isSubject : (steps, subject) ∈ subjects) (present : context.Present subject defect) :
      FailsWithin context child parts subjects place ⟨defect, place.extend steps⟩

variable {context : Context} {child : Shape → Location → Except SchemaError Document}
  {parts more : List (List Step × Shape)} {subjects further : List (List Step × Subject)}
  {place : Location} {error : SchemaError}

theorem FailsWithin.mono (h : context.FailsWithin child parts subjects place error)
    (hparts : parts ⊆ more) (hsubjects : subjects ⊆ further) :
    context.FailsWithin child more further place error := by
  cases h with
  | part hpart hfailed => exact .part (hparts hpart) hfailed
  | subject hsubject hpresent => exact .subject (hsubjects hsubject) hpresent

/-- What fails a step further fails with this step before its steps. -/
theorem FailsWithin.inside {step : Step}
    (h : context.FailsWithin child parts subjects (place.push step) error) :
    context.FailsWithin child (parts.map fun (steps, shape) => (step :: steps, shape))
      (subjects.map fun (steps, checked) => (step :: steps, checked)) place error := by
  cases h with
  | part hpart hfailed =>
    rw [Location.extend_push] at hfailed
    exact .part (List.mem_map.mpr ⟨_, hpart, rfl⟩) hfailed
  | subject hsubject hpresent =>
    rw [Location.extend_push]
    exact .subject (List.mem_map.mpr ⟨_, hsubject, rfl⟩) hpresent

/-- A defect of the owner of some parts is reported at its own place. -/
theorem FailsWithin.owner {owner : Subject} (howner : ([], owner) ∈ subjects) {defect : Defect}
    (hpresent : context.Present owner defect) :
    context.FailsWithin child parts subjects place ⟨defect, place⟩ := by
  have hfails : context.FailsWithin child parts subjects place ⟨defect, place.extend []⟩ :=
    .subject howner hpresent
  rwa [Location.extend_nil] at hfails

theorem applyBounds_eq_error {shape : Shape} {c : Constraints} {doc : Document} {defect : Defect}
    (hfail : context.applyBounds shape c doc = .error defect) :
    (∀ kind, shape.unwrapped = .primitive kind → kind.isNumeric = false) ∧
      defect = .boundsOnNonNumeric (context.graph.describe shape.unwrapped) := by
  unfold applyBounds at hfail
  split at hfail
  · next kind hkind =>
    split at hfail
    · cases hfail
    · next hnumeric =>
      cases hfail
      rw [hkind]
      refine ⟨fun other hother => ?_, rfl⟩
      cases hother
      exact eq_false_of_ne_true hnumeric
  · next hother =>
    cases hfail
    exact ⟨fun kind hkind => absurd hkind (hother kind), rfl⟩

/-- A constrained shape fails for its constraints or because the shape fails. -/
theorem failsWithin_of_constrained {shape : Shape} {c : Constraints}
    (hfail : context.constrained child shape c place = .error error) :
    context.FailsWithin child [([], shape)] [([], .constrained shape c)] place error := by
  have hself : (([], .constrained shape c) : List Step × Subject) ∈
      [([], .constrained shape c)] := List.mem_singleton_self _
  rcases bind_eq_error.mp hfail with hcheck | ⟨_, _, hfail⟩
  · obtain ⟨defect, hdefect, rfl⟩ := located_eq_error.mp hcheck
    exact .owner hself (.malformed (Constraints.malformed_of_check hdefect))
  rcases bind_eq_error.mp hfail with hchild | ⟨doc, _, hfail⟩
  · have hpart : (([], shape) : List Step × Shape) ∈ [([], shape)] := List.mem_singleton_self _
    refine .part hpart ?_
    rw [Location.extend_nil]
    exact hchild
  split at hfail
  · next hbounds =>
    obtain ⟨defect, hbounded, rfl⟩ := located_eq_error.mp hfail
    obtain ⟨hnumber, rfl⟩ := applyBounds_eq_error hbounded
    exact .owner hself (.boundsOnNonNumeric hbounds hnumber)
  · cases hfail

section Fields

variable {owner : Subject} {rule : Option RenameRule}

/-- Fields fail one by one, or where one of them has the key of another. -/
theorem failsWithin_of_properties {used : List String} {fields : List Field}
    (howner : ∀ key, 2 ≤ (used ++ fieldKeys rule fields).count key →
      context.Present owner (.duplicateProperty key))
    (hfail : context.properties child rule place used fields = .error error) :
    context.FailsWithin child (Payload.struct fields).parts
      (([], owner) :: fields.map Field.subject) place error := by
  induction fields generalizing used with
  | nil => cases hfail
  | cons field rest ih =>
    have hkeys : fieldKeys rule (field :: rest) =
        fieldKey field.name field.constraints.rename rule :: fieldKeys rule rest := rfl
    rw [hkeys] at howner
    rcases guarded_eq_error.mp hfail with ⟨hmem, rfl⟩ | ⟨_, hfail⟩
    · refine .owner List.mem_cons_self (howner _ ?_)
      have hbefore := List.count_pos_iff.mpr hmem
      rw [List.count_append, List.count_cons_self]
      omega
    rcases bind_eq_error.mp hfail with hfield | ⟨_, _, hfail⟩
    · refine (failsWithin_of_constrained hfield).inside.mono ?_ ?_
      · exact List.cons_subset.mpr ⟨List.mem_cons_self, List.nil_subset _⟩
      · refine List.cons_subset.mpr ⟨?_, List.nil_subset _⟩
        exact List.mem_cons_of_mem _ List.mem_cons_self
    · rcases bind_eq_error.mp hfail with hmore | ⟨_, _, hlast⟩
      · refine (ih (fun key hcount => howner key ?_) hmore).mono ?_ ?_
        · simpa [List.count_append, List.count_cons, Nat.add_assoc, Nat.add_comm,
            Nat.add_left_comm] using hcount
        · exact List.subset_cons_self _ _
        · exact List.cons_subset_cons _ (List.subset_cons_self _ _)
      · cases hlast

/-- A record fails at one of its fields, where two of them have one key, or at its further
values. -/
theorem failsWithin_of_structSchema {fields : List Field} {extra : Extra}
    (howner : ∀ key, List.Duplicate key (fieldKeys rule fields) →
      context.Present owner (.duplicateProperty key))
    (hfail : context.structSchema child fields rule extra place = .error error) :
    context.FailsWithin child ((Payload.struct fields).parts ++ extra.parts)
      (([], owner) :: fields.map Field.subject) place error := by
  rcases bind_eq_error.mp hfail with hfields | ⟨_, _, hfail⟩
  · refine (failsWithin_of_properties (fun key hcount => ?_) hfields).mono
      (List.subset_append_left _ _) (List.Subset.refl _)
    exact howner key (List.duplicate_iff_two_le_count.mpr hcount)
  rcases bind_eq_error.mp hfail with hfurther | ⟨_, _, hlast⟩
  · cases extra with
    | unspecified | allowed => cases hfurther
    | values shape =>
      rcases bind_eq_error.mp hfurther with hvalues | ⟨_, _, hlast⟩
      · have hpart : (([.values], shape) : List Step × Shape) ∈
            (Payload.struct fields).parts ++ (Extra.values shape).parts :=
          List.mem_append_right _ (List.mem_singleton_self _)
        exact .part hpart hvalues
      · cases hlast
  · cases hlast

end Fields

/-- A position of a tuple fails at its index. -/
theorem exists_of_elements {position : Nat} {shapes : List Shape}
    (hfail : elements child place position shapes = .error error) :
    ∃ (offset : Nat) (hlt : offset < shapes.length),
      child shapes[offset] (place.push (.index (position + offset))) = .error error := by
  induction shapes generalizing position with
  | nil => cases hfail
  | cons shape rest ih =>
    rcases bind_eq_error.mp hfail with hfirst | ⟨_, _, hfail⟩
    · exact ⟨0, Nat.zero_lt_succ _, hfirst⟩
    rcases bind_eq_error.mp hfail with hmore | ⟨_, _, hlast⟩
    · obtain ⟨offset, hlt, hoffset⟩ := ih hmore
      refine ⟨offset + 1, Nat.succ_lt_succ hlt, ?_⟩
      rw [List.getElem_cons_succ, Nat.add_comm offset, ← Nat.add_assoc]
      exact hoffset
    · cases hlast

theorem failsWithin_of_tupleSchema {shapes : List Shape}
    (hfail : tupleSchema child shapes place = .error error) :
    context.FailsWithin child (Payload.tuple shapes).parts subjects place error := by
  rcases bind_eq_error.mp hfail with helements | ⟨_, _, hlast⟩
  · obtain ⟨position, hlt, hposition⟩ := exists_of_elements helements
    rw [Nat.zero_add] at hposition
    have hpart : ([.index position], shapes[position]) ∈ (Payload.tuple shapes).parts :=
      List.mem_mapIdx.mpr ⟨position, hlt, rfl⟩
    exact .part hpart hposition
  · cases hlast

section Variants

variable {rule : Option RenameRule}

/-- A variant fails below its name. -/
theorem failsWithin_of_encodedVariant {variant : Variant}
    (hfail : context.encodedVariant child rule place variant = .error error) :
    context.FailsWithin child variant.parts variant.subjects place error := by
  suffices hinside : context.FailsWithin child variant.payload.parts
      (([], .variant variant) :: variant.payload.subjects variant.constraints)
      (place.push (.member variant.name)) error from hinside.inside
  obtain ⟨name, payload, c, hname⟩ := variant
  have hbounded : c.hasBounds → (∀ shape, payload ≠ .newtype shape) →
      context.Present (.variant ⟨name, payload, c, hname⟩) .boundsOnVariant :=
    fun hbounds hsingle => .boundsOnVariant hbounds hsingle
  simp only [encodedVariant] at hfail
  cases payload with
  | newtype shape =>
    rcases bind_eq_error.mp hfail with hshape | ⟨_, _, hlast⟩
    · exact (failsWithin_of_constrained hshape).mono (List.Subset.refl _)
        (List.subset_cons_self _ _)
    · cases hlast
  | unit =>
    rcases guarded_eq_error.mp hfail with ⟨hbounds, rfl⟩ | ⟨_, hlast⟩
    · exact .owner List.mem_cons_self (hbounded hbounds (by simp))
    · cases hlast
  | tuple shapes =>
    rcases guarded_eq_error.mp hfail with ⟨hbounds, rfl⟩ | ⟨_, hfail⟩
    · exact .owner List.mem_cons_self (hbounded hbounds (by simp))
    rcases bind_eq_error.mp hfail with htuple | ⟨_, _, hlast⟩
    · exact failsWithin_of_tupleSchema htuple
    · cases hlast
  | struct fields =>
    rcases guarded_eq_error.mp hfail with ⟨hbounds, rfl⟩ | ⟨_, hfail⟩
    · exact .owner List.mem_cons_self (hbounded hbounds (by simp))
    rcases bind_eq_error.mp hfail with hstruct | ⟨_, _, hlast⟩
    · refine (failsWithin_of_structSchema (fun key htwice => ?_) hstruct).mono ?_
        (List.Subset.refl _)
      · exact .duplicateInVariant rfl htwice
      · exact List.append_subset.mpr ⟨List.Subset.refl _, List.nil_subset _⟩
    · cases hlast

/-- Variants fail one by one, or where one of them has the key of another. -/
theorem failsWithin_of_encodedVariants {owner : Subject} {used : List String}
    {variants : List Variant}
    (howner : ∀ key, 2 ≤ (used ++ variantKeys rule variants).count key →
      context.Present owner (.duplicateVariant key))
    (hfail : context.encodedVariants child rule place used variants = .error error) :
    context.FailsWithin child (variants.flatMap Variant.parts)
      (([], owner) :: variants.flatMap Variant.subjects) place error := by
  induction variants generalizing used with
  | nil => cases hfail
  | cons variant rest ih =>
    have hkeys : variantKeys rule (variant :: rest) =
        variantKey variant.name variant.constraints.rename rule :: variantKeys rule rest := rfl
    rw [hkeys] at howner
    rw [List.flatMap_cons, List.flatMap_cons]
    rcases bind_eq_error.mp hfail with hvariant | ⟨first, hfirst, hfail⟩
    · refine (failsWithin_of_encodedVariant hvariant).mono (List.subset_append_left _ _) ?_
      exact List.subset_cons_of_subset _ (List.subset_append_left _ _)
    rw [context.key_encodedVariant hfirst] at hfail
    rcases guarded_eq_error.mp hfail with ⟨hmem, rfl⟩ | ⟨_, hfail⟩
    · refine .owner List.mem_cons_self (howner _ ?_)
      have hbefore := List.count_pos_iff.mpr hmem
      rw [List.count_append, List.count_cons_self]
      omega
    rcases bind_eq_error.mp hfail with hmore | ⟨_, _, hlast⟩
    · refine (ih (fun key hcount => howner key ?_) hmore).mono (List.subset_append_right _ _) ?_
      · simpa [List.count_append, List.count_cons, Nat.add_assoc, Nat.add_comm,
          Nat.add_left_comm] using hcount
      · exact List.cons_subset_cons _ (List.subset_append_right _ _)
    · cases hlast

variable {index : Nat} {type : Enum} (hfound : context.graph.declaration? index = some (.enum type))
include hfound

theorem present_of_check {defect : Defect} (hcheck : type.tagging.check = .error defect) :
    context.Present (.shape (.declared index)) defect := by
  unfold Tagging.check at hcheck
  split at hcheck
  · next tag htagging =>
    split at hcheck
    · next hempty =>
      cases hcheck
      exact .emptyTag hfound (hempty ▸ htagging)
    · cases hcheck
  · next tag content htagging =>
    split at hcheck
    · next hempty =>
      cases hcheck
      exact .emptyTagOrContent hfound htagging hempty
    · split at hcheck
      · next hequal =>
        cases hcheck
        exact .tagEqualsContent hfound (hequal ▸ htagging)
      · cases hcheck
  · cases hcheck
  · cases hcheck

/-- A variant that cannot be encoded has no place for the tag of its enum. -/
theorem present_of_encode {D : Shape → Prop} {listed : Shape → List String}
    (h : Provides child D listed)
    (hlisted : ∀ part, context.isObjectPayload part → listed part ⊆ context.graph.structKeys part)
    {variant : Variant} (hvariant : variant ∈ type.variants) {encoded : EncodedVariant}
    (hencoded : context.encodedVariant child type.renameAll place variant = .ok encoded)
    {defect : Defect} (hfail : type.tagging.encode encoded = .error defect) :
    context.Present (.shape (.declared index)) defect := by
  have hkey := context.key_encodedVariant hencoded
  obtain ⟨key, schema?, mergeable⟩ := encoded
  obtain rfl : key = variantKey variant.name variant.constraints.rename type.renameAll := hkey
  obtain ⟨rfl, _⟩ | ⟨doc, rfl, htyped, rfl, hkeys⟩ := context.encodedVariant_cases h hencoded
  · obtain ⟨_, hok⟩ := type.tagging.succeeds_encode_unit _ mergeable
    cases hfail.symm.trans hok
  obtain ⟨tag, htagging, ⟨hunmergeable, rfl⟩ | ⟨hobject, hhas, rfl⟩⟩ :=
    Tagging.encode_eq_error htyped hfail
  · exact .unmergeablePayload hfound htagging hvariant hunmergeable
  · refine .tagCollision hfound htagging hvariant ?_
    have hmem := (hkeys hobject tag).mp hhas
    cases hpayload : variant.payload with
    | newtype shape =>
      rw [hpayload] at hmem hobject
      exact hlisted shape hobject hmem
    | _ =>
      rw [hpayload] at hmem
      exact hmem

/-- An enum fails at one of its variants, where two of them have one key, or for its tags. -/
theorem failsWithin_of_enumSchema {D : Shape → Prop} {listed : Shape → List String}
    (h : Provides child D listed)
    (hlisted : ∀ part, context.isObjectPayload part → listed part ⊆ context.graph.structKeys part)
    (hfail : context.enumSchema child type place = .error error) :
    context.FailsWithin child (Declaration.enum type).parts
      (([], .shape (.declared index)) :: (Declaration.enum type).subjects) place error := by
  rcases bind_eq_error.mp hfail with hvariants | ⟨encoded, hencoded, hfail⟩
  · refine failsWithin_of_encodedVariants (fun key hcount => ?_) hvariants
    exact .duplicateVariant hfound (List.duplicate_iff_two_le_count.mpr hcount)
  obtain ⟨defect, hunion, rfl⟩ := located_eq_error.mp hfail
  refine .owner List.mem_cons_self ?_
  obtain ⟨_, hencode⟩ := context.encodedVariants_eq_ok.mp hencoded
  rcases Tagging.encodeUnion_eq_error hunion with hcheck | ⟨rfl, rfl⟩ | ⟨v, hv, hfail⟩
  · exact present_of_check hfound hcheck
  · exact .noVariants hfound (List.forall₂_nil_right_iff.mp hencode)
  · have hmem : List.Forall₂ (fun variant encoded => variant ∈ type.variants ∧
        context.encodedVariant child type.renameAll place variant = .ok encoded)
        type.variants encoded :=
      forall₂_imp_of_mem hencode fun variant hvariant _ hencoded => ⟨hvariant, hencoded⟩
    obtain ⟨variant, hvariant, hencoded⟩ := exists_of_forall₂ hmem.flip v hv
    exact present_of_encode hfound h hlisted hvariant hencoded hfail

end Variants

/-- One level fails for the shape itself, for constraints in it, or because a part fails. -/
theorem failsWithin_of_level {D : Shape → Prop} {listed : Shape → List String}
    (h : Provides child D listed)
    (hlisted : ∀ part, context.isObjectPayload part → listed part ⊆ context.graph.structKeys part)
    {shape : Shape} (hfail : context.level child shape place = .error error) :
    context.FailsWithin child (context.graph.parts shape) (context.graph.subjects shape) place
      error := by
  have honly : ∀ {steps : List Step} {part : Shape},
      child part (place.extend steps) = .error error →
        context.FailsWithin child [(steps, part)] (context.graph.subjects shape) place error :=
    fun hpart => .part (List.mem_singleton_self _) hpart
  have hself : ∀ {defect : Defect}, context.Present (.shape shape) defect →
      context.FailsWithin child (context.graph.parts shape) (context.graph.subjects shape) place
        ⟨defect, place⟩ := fun hpresent => .owner List.mem_cons_self hpresent
  cases shape with
  | optional label inner =>
    rcases bind_eq_error.mp hfail with hinner | ⟨doc, hdoc, hfail⟩
    · exact honly (place.extend_nil.symm ▸ hinner)
    · obtain ⟨widened, hwidened, _⟩ := Schema.widenNullable_of_isTyped (h.typed hdoc)
      rw [hwidened] at hfail
      cases hfail
  | array label element | set label element | fixedArray label element =>
    rcases bind_eq_error.mp hfail with helement | ⟨_, _, hlast⟩
    · exact honly helement
    · cases hlast
  | map label key value =>
    rcases bind_eq_error.mp hfail with hvalue | ⟨doc, _, hfail⟩
    · exact honly hvalue
    · obtain ⟨defect, hmap, rfl⟩ := located_eq_error.mp hfail
      unfold Schema.map at hmap
      split at hmap
      · cases hmap
      · next hkey =>
        cases hmap
        exact hself (.mapKey (eq_false_of_ne_true hkey))
  | newtype label name inner => exact honly (place.extend_nil.symm ▸ hfail)
  | generic label name =>
    cases hfail
    exact hself (.unresolvedParameter label name)
  | raw value =>
    cases hfail
    exact hself (.notAShape value)
  | declared index =>
    cases hfound : context.graph.declaration? index with
    | none =>
      simp only [level, hfound] at hfail
      cases hfail
      exact hself (.nothing hfound)
    | some type =>
      simp only [level, hfound] at hfail
      have hparts : context.graph.parts (.declared index) = type.parts := by
        simp [Graph.parts, hfound]
      have hsubjects : context.graph.subjects (.declared index) =
          ([], .shape (.declared index)) :: type.subjects := by
        simp [Graph.subjects, hfound]
      rw [hparts, hsubjects]
      cases type with
      | struct type =>
        exact failsWithin_of_structSchema (fun key htwice => .duplicateProperty hfound htwice) hfail
      | tuple type => exact failsWithin_of_tupleSchema hfail
      | enum type => exact failsWithin_of_enumSchema hfound h hlisted hfail
  | _ => cases hfail

/-- Whether an error is reported at the end of a walk from a shape, where its defect is. The walk
expands no nominal node twice and none of those that are being expanded. -/
inductive Blames (context : Context) (active : List Shape) (shape : Shape) (place : Location) :
    SchemaError → Prop
  | intro {passed : List Shape} {steps further : List Step} {target : Shape} {subject : Subject}
      {defect : Defect} (walk : context.graph.Walk shape passed steps target)
      (once : ((passed ++ [target]).filter Shape.isNominal).Nodup)
      (free : ∀ node ∈ (passed ++ [target]).filter Shape.isNominal, node ∉ active)
      (isSubject : (further, subject) ∈ context.graph.subjects target)
      (present : context.Present subject defect) :
      Blames context active shape place ⟨defect, place.extend (steps ++ further)⟩

/-- Errors of the parts are reported at the ends of walks through the shape, which joins the nodes
being expanded if it is nominal. -/
theorem Blames.of_failsWithin {active : List Shape} {shape : Shape}
    (hfree : shape.isNominal → shape ∉ active)
    (hparts : ∀ steps part, (steps, part) ∈ context.graph.parts shape → ∀ there e,
      child part there = .error e →
        context.Blames (if shape.isNominal then shape :: active else active) part there e)
    (h : context.FailsWithin child (context.graph.parts shape) (context.graph.subjects shape) place
      error) : context.Blames active shape place error := by
  cases h with
  | @part steps part _ hpart hfailed =>
    cases hparts _ _ hpart _ _ hfailed with
    | @intro passed more further target subject defect walk once free hsubject hpresent =>
      rw [Location.extend_extend, ← List.append_assoc]
      refine .intro (.go hpart walk) ?_ ?_ hsubject hpresent
      · cases hnominal : shape.isNominal with
        | false => simpa [hnominal] using once
        | true =>
          rw [hnominal, if_pos rfl] at free
          rw [List.cons_append, List.filter_cons_of_pos hnominal]
          refine List.nodup_cons.mpr ⟨fun hmem => ?_, once⟩
          exact free shape hmem List.mem_cons_self
      · cases hnominal : shape.isNominal with
        | false => simpa [hnominal] using free
        | true =>
          rw [hnominal, if_pos rfl] at free
          rw [List.cons_append, List.filter_cons_of_pos hnominal]
          refine List.forall_mem_cons.mpr ⟨hfree hnominal, fun node hmem hactive => ?_⟩
          exact free node hmem (List.mem_cons_of_mem shape hactive)
  | subject hsubject hpresent =>
    refine .intro (.stay shape) ?_ ?_ hsubject hpresent
    · exact (List.nodup_singleton shape).filter _
    · intro node hmem
      obtain ⟨hnode, hnominal⟩ := List.mem_filter.mp hmem
      rw [List.mem_singleton.mp hnode] at hnominal ⊢
      exact hfree hnominal

/-- Every error of a walk has its place and its defect at the end of a walk through the graph. -/
theorem blames_of_plain (context : Context) (active : List Shape) (shape : Shape) :
    ∀ place error, context.walk Policy.plain active shape place = .error error →
      context.Blames active shape place error := by
  have hlisted : ∀ (above : List Shape) (part : Shape), context.isObjectPayload part →
      context.listed above part ⊆ context.graph.structKeys part :=
    fun _ _ hobject => listed_subset hobject
  induction active, shape using context.graph.expansion_induction with
  | pass active shape hnominal ih =>
    intro place error hfail
    rw [context.walk_of_not_nominal Policy.plain active place hnominal] at hfail
    have hfails := failsWithin_of_level (context.provides_walk active) (hlisted active) hfail
    refine Blames.of_failsWithin ?_ ?_ hfails
    · simp [hnominal]
    · simpa [hnominal] using ih
  | cut active shape hnominal hmem =>
    intro place error hfail
    rw [context.plain_of_mem place hnominal hmem] at hfail
    cases hfail
  | expand active shape hnominal hmem ih =>
    intro place error hfail
    rw [context.plain_of_not_mem place hnominal hmem] at hfail
    have hfails := failsWithin_of_level (context.provides_walk (shape :: active))
      (hlisted (shape :: active)) hfail
    refine Blames.of_failsWithin (fun _ => hmem) ?_ hfails
    simpa [hnominal] using ih

/-- Whether steps from a root lead to a defect: one of its own constraints, or one of what is
checked in a shape at the end of a walk that expands no nominal node twice. -/
inductive Exposes (context : Context) (root : Shape) (c : Constraints) : List Step → Defect → Prop
  | root {defect : Defect} (present : context.Present (.constrained root c) defect) :
      Exposes context root c [] defect
  | below {passed : List Shape} {steps further : List Step} {target : Shape} {subject : Subject}
      {defect : Defect} (walk : context.graph.Walk root passed steps target)
      (once : ((passed ++ [target]).filter Shape.isNominal).Nodup)
      (isSubject : (further, subject) ∈ context.graph.subjects target)
      (present : context.Present subject defect) :
      Exposes context root c (steps ++ further) defect

theorem exposes_of_derive? {root : Shape} {c : Constraints}
    (hfail : context.derive? root c = .error error) :
    ∃ steps, error.location = ⟨context.graph.describe root, steps⟩ ∧
      context.Exposes root c steps error.defect := by
  have hfails : context.FailsWithin (context.walk Policy.plain []) [([], root)]
      [([], .constrained root c)] (.start (context.graph.describe root)) error :=
    failsWithin_of_constrained hfail
  cases hfails with
  | part hpart hfailed =>
    cases List.mem_singleton.mp hpart
    rw [Location.extend_nil] at hfailed
    cases context.blames_of_plain [] root _ _ hfailed with
    | @intro _ steps further _ _ _ walk once _ hsubject hpresent =>
      exact ⟨steps ++ further, rfl, .below walk once hsubject hpresent⟩
  | subject hsubject hpresent =>
    cases List.mem_singleton.mp hsubject
    exact ⟨[], rfl, .root hpresent⟩

end Context

/-- Every error is reported at a place that is real. Its text begins with the label of the root and
goes on with the texts of steps, and these lead from the root to the defect that is reported. -/
theorem Graph.derive_error_exposes {graph other : Graph} {root shape : Shape} {bindings : Bindings}
    (hsubst : graph.substitute bindings root = (shape, other)) {settings : DeriveSettings}
    {c : Constraints} {error : SchemaError}
    (hfail : graph.derive settings root c bindings = .error error) :
    ∃ steps, error.location = ⟨other.describe shape, steps⟩ ∧
      error.location.text = other.describe shape ++ String.join (steps.map Step.text) ∧
      error.location.text ≠ "" ∧
      Context.Exposes ⟨other, settings.strictObjects⟩ shape c steps error.defect := by
  rw [derive_eq hsubst] at hfail
  obtain ⟨steps, hlocation, hexposes⟩ := Context.exposes_of_derive? hfail
  have htext := error.location.text_eq
  rw [hlocation] at htext
  refine ⟨steps, hlocation, hlocation ▸ htext, ?_, hexposes⟩
  rw [hlocation, htext]
  intro hempty
  exact other.describe_ne_empty shape (String.append_eq_empty_iff.mp hempty).1

/-- Orders with items whose amounts are kept by number, which cannot be a key. -/
def orderGraph : Graph where
  declarations := #[.struct ⟨"Order", [⟨"items", .array 0 (.map 1 .u32 (.primitive .string)), .none,
    by decide⟩], none, .unspecified⟩]
  labels := 2

/-- The keys are refused below the field and its elements. -/
theorem derive_error_exposes_order :
    orderGraph.derive .default (.declared 0) .none [] =
        .error ⟨.mapKey .u32, ⟨"Order", [.member "items", .element]⟩⟩ ∧
      ∃ steps, (⟨"Order", [.member "items", .element]⟩ : Location) =
          ⟨orderGraph.describe (.declared 0), steps⟩ ∧
        (⟨"Order", [.member "items", .element]⟩ : Location).text =
          orderGraph.describe (.declared 0) ++ String.join (steps.map Step.text) ∧
        (⟨"Order", [.member "items", .element]⟩ : Location).text ≠ "" ∧
        Context.Exposes ⟨orderGraph, true⟩ (.declared 0) .none steps (.mapKey .u32) := by
  have hfail : orderGraph.derive .default (.declared 0) .none [] =
      .error ⟨.mapKey .u32, ⟨"Order", [.member "items", .element]⟩⟩ := by
    rw [Graph.derive_nil]
    cbv
  exact ⟨hfail, Graph.derive_error_exposes rfl hfail⟩

end ShapeSchema
