import ShapeSchema.Proofs.Derivation.Everywhere
import ShapeSchema.Proofs.Naming.Emptiness

/-!
The property keys of a derived schema are those of the declared types that the root reaches: the
keys of fields, and what the conventions add for variants. No constraint that is checked and no tag
is empty, and no name is; so a key is empty exactly where a rule that joins words is applied to a
field whose name consists of underscores.
-/

namespace ShapeSchema

open Schema

namespace Schema

variable {Q : String → Prop} {d : Document}

def ListsOnly (Q : String → Prop) (schema : Document) : Prop :=
  ∀ key ∈ (Tagging.propertiesOf schema).keys, Q key

theorem listsOnly_of_none (hnone : d.get? "properties" = none) : ListsOnly Q d := by
  simp [ListsOnly, propertiesOf_of_none hnone, Document.keys]

theorem readsKeys_listsOnly : ReadsKeys (ListsOnly Q) Q where
  unranged _ _ := Iff.rfl
  put_kind hkeyword := by
    rw [ListsOnly, ListsOnly, propertiesOf_congr (get?_put_kind hkeyword (by decide))]

theorem listsOnly_primitive (kind : PrimitiveKind) :
    Everywhere (ListsOnly Q) (primitive kind) := by
  rw [everywhere_iff_members]
  constructor
  · apply listsOnly_of_none
    cases kind <;> rfl
  · cases kind <;> simp [primitive, heldEverywhere_of_not_mem]

/-- Bounds list no properties. -/
theorem everywhere_listsOnly_bounded (hnodup : d.keys.Nodup) (c : Constraints) :
    Everywhere (ListsOnly Q) (c.bounded d) ↔ Everywhere (ListsOnly Q) d := by
  rw [everywhere_iff_get? (c.nodup_bounded hnodup), everywhere_iff_get? hnodup, ListsOnly,
    ListsOnly, propertiesOf_bounded]
  apply and_congr_right'
  apply forall_congr'
  intro keyword
  by_cases hkeyword : keyword ∈ ["properties", "items", "additionalProperties", "anyOf"]
  · have hunbound : keyword ∉ "minimum" :: boundKeys := by
      simp only [List.mem_cons, List.not_mem_nil, or_false] at hkeyword
      rcases hkeyword with rfl | rfl | rfl | rfl <;> decide
    rw [get?_bounded_of_not_mem c hunbound]
  · constructor <;> exact fun _ _ _ => heldEverywhere_of_not_mem hkeyword

end Schema

theorem Context.isSettledBy_listsOnly (context : Context) (Q : String → Prop) :
    context.IsSettledBy (ListsOnly Q) Q fun _ _ => True where
  toReadsKeys := readsKeys_listsOnly
  primitive := listsOnly_primitive
  constrained := by
    intro active shape c place doc _ hdoc
    obtain ⟨_, inner, hinner, rfl⟩ := context.constrained_eq_ok.mp hdoc
    rw [hasEverywhere_iff hinner, and_true]
    split
    · exact everywhere_listsOnly_bounded (isFresh_of_plain hinner).typed.nodup c
    · rfl

theorem eachConstrained_true {subjects : List (List Step × Subject)} :
    EachConstrained (fun _ _ => True) subjects :=
  fun _ _ _ _ => trivial

/-- The properties in a derived schema have keys of a kind exactly if all keys of the declared types
that the root reaches are of that kind. -/
theorem Graph.listsOnly_derive {graph other : Graph} {root shape : Shape} {bindings : Bindings}
    (hsubst : graph.substitute bindings root = (shape, other)) {settings : DeriveSettings}
    {c : Constraints} {doc : Document} (hdoc : graph.derive settings root c bindings = .ok doc)
    (Q : String → Prop) :
    Everywhere (ListsOnly Q) doc ↔
      ∀ target, other.Reaches shape target → ∀ key ∈ other.propertyKeys target, Q key := by
  rw [Graph.everywhere_derive hsubst settings (Context.isSettledBy_listsOnly _ Q) hdoc, true_and]
  simp only [InOrder, eachConstrained_true, true_and]

/-! ## Empty keys -/

theorem Constraints.rename_ne_empty {c : Constraints} (hcheck : c.check = .ok ()) :
    c.rename ≠ some "" := by
  intro hrename
  have hblank := (Constraints.check_eq_ok.mp hcheck).key "" hrename
  simp at hblank

/-- Whether a rule leaves nothing of the name that a field has. -/
def Field.isNameless (rule : Option RenameRule) (field : Field) : Bool :=
  field.constraints.rename.isNone && rule.any (·.joinsWords) && field.name.toList.all (· == '_')

theorem fieldKey_eq_empty_iff_isNameless {field : Field}
    (hcheck : field.constraints.check = .ok ()) {rule : Option RenameRule} :
    fieldKey field.name field.constraints.rename rule = "" ↔ field.isNameless rule = true := by
  rw [fieldKey_eq_empty field.name_ne_empty, or_iff_right (Constraints.rename_ne_empty hcheck)]
  cases rule <;> simp [Field.isNameless, and_assoc]

theorem fieldKeys_none_ne_empty {fields : List Field}
    (hchecks : ∀ field ∈ fields, field.constraints.check = .ok ()) :
    ∀ key ∈ fieldKeys none fields, key ≠ "" := by
  intro key hkey
  obtain ⟨field, hfield, rfl⟩ := List.mem_map.mp hkey
  rw [ne_eq, fieldKey_eq_empty_iff_isNameless (hchecks field hfield)]
  simp [Field.isNameless]

/-- No convention adds an empty key if its tags are not empty. -/
theorem Tagging.ownKeys_ne_empty {tagging : Tagging} (hcheck : tagging.check = .ok ())
    {key : String} (hkey : key ≠ "") : ∀ own ∈ tagging.ownKeys key, own ≠ "" := by
  cases tagging with
  | external => simpa [ownKeys] using hkey
  | internal tag =>
    have htag : tag ≠ "" := by
      rintro rfl
      simp [check] at hcheck
    simpa [ownKeys] using htag
  | adjacent tag content =>
    have hboth : ¬(tag = "" ∨ content = "") := by
      intro h
      simp [check, h] at hcheck
    simpa [ownKeys, not_or] using hboth
  | untagged => simp [ownKeys]

/-- An enum has no empty keys of its own. -/
theorem Enum.propertyKeys_ne_empty {type : Enum} (htagging : type.tagging.check = .ok ())
    (hchecks : ∀ set ∈ (Declaration.enum type).constraintSets, set.check = .ok ()) :
    ∀ key ∈ (Declaration.enum type).propertyKeys, key ≠ "" := by
  intro key hkey
  obtain ⟨variant, hvariant, hkey⟩ := List.mem_flatMap.mp hkey
  have hsets : ∀ set ∈ variant.constraintSets, set.check = .ok () := fun set hset =>
    hchecks set (List.mem_flatMap.mpr ⟨variant, hvariant, hset⟩)
  obtain ⟨hown, hinside⟩ := List.forall_mem_cons.mp hsets
  rcases List.mem_append.mp hkey with hkey | hkey
  · have hname : variantKey variant.name variant.constraints.rename type.renameAll ≠ "" := by
      rw [ne_eq, variantKey_eq_empty variant.name_ne_empty]
      exact Constraints.rename_ne_empty hown
    exact Tagging.ownKeys_ne_empty htagging hname key hkey
  · cases hpayload : variant.payload with
    | struct fields =>
      rw [hpayload] at hkey hinside
      exact fieldKeys_none_ne_empty (List.forall_mem_map.mp hinside) key hkey
    | _ => simp [hpayload, Payload.keys] at hkey

/-- A struct has an empty key only where a rule leaves nothing of a name. -/
theorem Struct.propertyKeys_ne_empty_iff {type : Struct}
    (hchecks : ∀ set ∈ (Declaration.struct type).constraintSets, set.check = .ok ()) :
    (∀ key ∈ (Declaration.struct type).propertyKeys, key ≠ "") ↔
      ∀ field ∈ type.fields, field.isNameless type.renameAll = false := by
  have hfields : ∀ field ∈ type.fields, field.constraints.check = .ok () :=
    List.forall_mem_map.mp hchecks
  have hkeys : (∀ key ∈ (Declaration.struct type).propertyKeys, key ≠ "") ↔
      ∀ field ∈ type.fields,
        fieldKey field.name field.constraints.rename type.renameAll ≠ "" := List.forall_mem_map
  rw [hkeys]
  apply forall₂_congr
  intro field hfield
  rw [ne_eq, fieldKey_eq_empty_iff_isNameless (hfields field hfield), Bool.not_eq_true]

/-- If all constraints pass that a root with a schema reaches, then the schema lists a property
under the empty key exactly if the root reaches a struct with a field that its rule leaves
nameless. -/
theorem Graph.derive_named_iff {graph other : Graph} {root shape : Shape} {bindings : Bindings}
    (hsubst : graph.substitute bindings root = (shape, other)) {settings : DeriveSettings}
    {c : Constraints} {doc : Document} (hdoc : graph.derive settings root c bindings = .ok doc)
    (hchecks : ∀ target, other.Reaches shape target →
      ∀ set ∈ other.constraintSets target, set.check = .ok ()) :
    (∀ part ∈ subschemas doc, "" ∉ (Tagging.propertiesOf part).keys) ↔
      ∀ index type, other.Reaches shape (.declared index) →
        other.declaration? index = some (.struct type) →
          ∀ field ∈ type.fields, field.isNameless type.renameAll = false := by
  have hfits : ∀ target, other.Reaches shape target →
      Context.Fits ⟨other, settings.strictObjects⟩ target := by
    have hderived := hdoc
    rw [derive_eq hsubst] at hderived
    obtain ⟨_, hderives⟩ := Context.succeeds_derive?.mp ⟨doc, hderived⟩
    exact fun target hreaches => hderives.fits hreaches.avoiding_nil
  have hlists : (∀ part ∈ subschemas doc, "" ∉ (Tagging.propertiesOf part).keys) ↔
      Everywhere (ListsOnly (· ≠ "")) doc := by
    simp only [Everywhere, ListsOnly]
    refine forall₂_congr fun part _ => ⟨fun h key hkey heq => h (heq ▸ hkey), fun h hmem => ?_⟩
    exact h "" hmem rfl
  rw [hlists, Graph.listsOnly_derive hsubst hdoc]
  constructor
  · intro h index type hreaches hfound
    have hsets := hchecks _ hreaches
    have hkeys := h _ hreaches
    simp only [constraintSets, propertyKeys, hfound, Option.map_some, Option.getD_some]
      at hsets hkeys
    exact (Struct.propertyKeys_ne_empty_iff hsets).mp hkeys
  · intro h target hreaches
    cases target with
    | declared index =>
      have hsets := hchecks _ hreaches
      have hfit := hfits _ hreaches
      cases hfound : other.declaration? index with
      | none => simp [propertyKeys, hfound]
      | some type =>
        simp only [constraintSets, propertyKeys, hfound, Option.map_some, Option.getD_some]
          at hsets ⊢
        cases type with
        | struct type =>
          exact (Struct.propertyKeys_ne_empty_iff hsets).mpr (h index type hreaches hfound)
        | tuple type => simp [Declaration.propertyKeys]
        | enum type =>
          simp only [Context.Fits, hfound] at hfit
          exact Enum.propertyKeys_ne_empty hfit.tagging hsets
    | _ => simp [propertyKeys]

def joinedGraph (name : String) (hname : name ≠ "") : Graph where
  declarations := #[.struct ⟨"Joined", [⟨name, .primitive .string, .none, hname⟩],
    some .pascalCase, .unspecified⟩]
  labels := 0

def joinedSchema (key : String) : Document :=
  Tagging.closedObject [(key, .obj (primitive .string))]

theorem reaches_joinedGraph {name : String} {hname : name ≠ ""} {target : Shape}
    (hreaches : (joinedGraph name hname).Reaches (.declared 0) target) :
    target = .declared 0 ∨ target = .primitive .string := by
  apply hreaches.part_induction (P := fun node => node = .declared 0 ∨ node = .primitive .string)
  · exact .inl rfl
  · rintro node (rfl | rfl)
    · exact eachPart_singleton.mpr (.inr rfl)
    · exact eachPart_nil

theorem derive_joinedGraph (name : String) (hname : name ≠ "") :
    (joinedGraph name hname).derive .default (.declared 0) .none [] =
      .ok (joinedSchema (fieldKey name none (some .pascalCase))) := by
  rw [Graph.derive_nil, Context.derive?_struct _ rfl, Context.structSchema, Context.properties,
    Context.constrained, Context.plain_primitive]
  rfl

theorem derive_named_joined :
    (joinedGraph "full_name" (by decide)).derive .default (.declared 0) .none [] =
        .ok (joinedSchema "FullName") ∧
      ∀ part ∈ subschemas (joinedSchema "FullName"), "" ∉ (Tagging.propertiesOf part).keys := by
  have hdoc : (joinedGraph "full_name" (by decide)).derive .default (.declared 0) .none [] =
      .ok (joinedSchema "FullName") := by
    rw [derive_joinedGraph]
    decide
  have hsubst : (joinedGraph "full_name" (by decide)).substitute [] (.declared 0) =
      (.declared 0, joinedGraph "full_name" (by decide)) := rfl
  refine ⟨hdoc, (Graph.derive_named_iff hsubst hdoc ?_).mpr ?_⟩
  · intro target hreaches
    rcases reaches_joinedGraph hreaches with rfl | rfl <;> decide
  · intro index type hreaches hfound
    rcases reaches_joinedGraph hreaches with heq | heq <;> cases heq
    cases hfound
    decide

/-- A field named by one underscore has the empty key under a rule that joins words. -/
theorem derive_nameless :
    (joinedGraph "_" (by decide)).derive .default (.declared 0) .none [] = .ok (joinedSchema "") ∧
      (∀ target, (joinedGraph "_" (by decide)).Reaches (.declared 0) target →
        ∀ set ∈ (joinedGraph "_" (by decide)).constraintSets target, set.check = .ok ()) ∧
      "" ∈ (Tagging.propertiesOf (joinedSchema "")).keys := by
  refine ⟨?_, fun target hreaches => ?_, by decide⟩
  · rw [derive_joinedGraph]
    decide
  · rcases reaches_joinedGraph hreaches with rfl | rfl <;> decide

end ShapeSchema
