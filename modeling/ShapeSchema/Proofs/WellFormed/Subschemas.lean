import ShapeSchema.Proofs.Acceptance.Bounds
import ShapeSchema.Schema.WellFormed

/-!
Which schemas are inside a schema. It is well formed if its own keywords fit each other and the
schemas that its keywords hold are well formed, so that a change to some keywords concerns these
alone.
-/

namespace ShapeSchema.Schema

section Parts

variable {d part : Document} {keyword : String} {argument : Json}

theorem mem_inner_iff : part ∈ inner d ↔ ∃ member ∈ d, part ∈ held member.1 member.2 := by
  induction d with
  | nil => simp [inner]
  | cons head rest ih => rw [inner, List.mem_append, ih, List.exists_mem_cons_iff]

theorem mem_heldByMembers_iff {members : List (String × Json)} :
    part ∈ heldByMembers members ↔
      ∃ key schema, (key, .obj schema) ∈ members ∧ part ∈ subschemas schema := by
  induction members with
  | nil => simp [heldByMembers]
  | cons head rest ih =>
    obtain ⟨key, value⟩ := head
    cases value with
    | obj schema =>
      have hhead : part ∈ heldByMembers ((key, .obj schema) :: rest) ↔
          part ∈ subschemas schema ∨ part ∈ heldByMembers rest := by
        rw [heldByMembers, subschemas, ← List.cons_append, List.mem_append]
      rw [hhead, ih]
      constructor
      · rintro (hpart | ⟨k, s, hmem, hpart⟩)
        · exact ⟨key, schema, List.mem_cons_self, hpart⟩
        · exact ⟨k, s, List.mem_cons_of_mem _ hmem, hpart⟩
      · rintro ⟨k, s, hmem, hpart⟩
        rcases List.mem_cons.mp hmem with heq | hmem
        · cases heq
          exact .inl hpart
        · exact .inr ⟨k, s, hmem, hpart⟩
    | _ => simp [heldByMembers, ih]

theorem mem_heldByItems_iff {items : List Json} :
    part ∈ heldByItems items ↔ ∃ schema, .obj schema ∈ items ∧ part ∈ subschemas schema := by
  induction items with
  | nil => simp [heldByItems]
  | cons head rest ih =>
    cases head with
    | obj schema =>
      have hhead : part ∈ heldByItems (.obj schema :: rest) ↔
          part ∈ subschemas schema ∨ part ∈ heldByItems rest := by
        rw [heldByItems, subschemas, ← List.cons_append, List.mem_append]
      rw [hhead, ih]
      constructor
      · rintro (hpart | ⟨s, hmem, hpart⟩)
        · exact ⟨schema, List.mem_cons_self, hpart⟩
        · exact ⟨s, List.mem_cons_of_mem _ hmem, hpart⟩
      · rintro ⟨s, hmem, hpart⟩
        rcases List.mem_cons.mp hmem with heq | hmem
        · cases heq
          exact .inl hpart
        · exact .inr ⟨s, hmem, hpart⟩
    | _ => simp [heldByItems, ih]

section Everywhere

variable {P : Document → Prop}

/-- Whether something holds of a schema and of all schemas inside it. -/
def Everywhere (P : Document → Prop) (d : Document) : Prop :=
  ∀ part ∈ subschemas d, P part

def HeldEverywhere (P : Document → Prop) (keyword : String) (argument : Json) : Prop :=
  ∀ part ∈ held keyword argument, P part

theorem everywhere_iff_members :
    Everywhere P d ↔ P d ∧ ∀ member ∈ d, HeldEverywhere P member.1 member.2 := by
  have hinner : (∀ part ∈ inner d, P part) ↔
      ∀ member ∈ d, HeldEverywhere P member.1 member.2 := by
    simp only [mem_inner_iff, HeldEverywhere]
    exact ⟨fun h member hmem part hpart => h part ⟨member, hmem, hpart⟩,
      fun h part ⟨member, hmem, hpart⟩ => h member hmem part hpart⟩
  rw [Everywhere, subschemas, List.forall_mem_cons, hinner]

theorem everywhere_iff_get? (hnodup : d.keys.Nodup) :
    Everywhere P d ↔ P d ∧
      ∀ keyword argument, d.get? keyword = some argument → HeldEverywhere P keyword argument := by
  rw [everywhere_iff_members]
  refine and_congr_right fun _ => ⟨fun h keyword argument hfound => ?_, fun h member hmem => ?_⟩
  · exact h _ (Document.mem_of_get? hfound)
  · exact h _ _ (Document.get?_of_mem hnodup hmem)

/-- Most keywords hold no schemas, whatever their arguments are. -/
theorem heldEverywhere_of_not_mem
    (hkeyword : keyword ∉ ["properties", "items", "additionalProperties", "anyOf"]) :
    HeldEverywhere P keyword argument := by
  simp only [List.mem_cons, List.not_mem_nil, or_false, not_or] at hkeyword
  cases argument <;> simp [HeldEverywhere, Schema.held, hkeyword]

theorem heldEverywhere_bool {value : Bool} : HeldEverywhere P keyword (.bool value) := by
  simp [HeldEverywhere, Schema.held]

theorem heldEverywhere_schema_iff
    (hkeyword : keyword = "items" ∨ keyword = "additionalProperties") :
    HeldEverywhere P keyword (.obj d) ↔ Everywhere P d := by
  have hheld : Schema.held keyword (.obj d) = subschemas d := by
    rcases hkeyword with rfl | rfl <;> simp [Schema.held, subschemas]
  rw [HeldEverywhere, hheld, Everywhere]

theorem heldEverywhere_schemas_iff {schemas : List Json}
    (hkeyword : keyword = "anyOf" ∨ keyword = "items") :
    HeldEverywhere P keyword (.arr schemas) ↔
      ∀ schema, .obj schema ∈ schemas → Everywhere P schema := by
  rw [HeldEverywhere, Schema.held, if_pos hkeyword]
  simp only [mem_heldByItems_iff]
  exact ⟨fun h schema hmem part hpart => h part ⟨schema, hmem, hpart⟩,
    fun h part ⟨schema, hmem, hpart⟩ => h schema hmem part hpart⟩

theorem heldEverywhere_properties_iff {properties : Document} :
    HeldEverywhere P "properties" (.obj properties) ↔
      ∀ key schema, (key, .obj schema) ∈ properties → Everywhere P schema := by
  rw [HeldEverywhere, Schema.held, if_pos rfl]
  simp only [mem_heldByMembers_iff]
  exact ⟨fun h key schema hmem part hpart => h part ⟨key, schema, hmem, hpart⟩,
    fun h part ⟨key, schema, hmem, hpart⟩ => h key schema hmem part hpart⟩

end Everywhere

def HoldsWellFormed (keyword : String) (argument : Json) : Prop :=
  ∀ part ∈ held keyword argument, IsRegular part

theorem isWellFormed_iff_members :
    IsWellFormed d ↔ IsRegular d ∧ ∀ member ∈ d, HoldsWellFormed member.1 member.2 :=
  everywhere_iff_members

theorem isWellFormed_iff_get? (hnodup : d.keys.Nodup) :
    IsWellFormed d ↔ IsRegular d ∧
      ∀ keyword argument, d.get? keyword = some argument → HoldsWellFormed keyword argument :=
  everywhere_iff_get? hnodup

theorem IsWellFormed.held (h : IsWellFormed d) (hfound : d.get? keyword = some argument) :
    HoldsWellFormed keyword argument :=
  (isWellFormed_iff_members.mp h).2 _ (Document.mem_of_get? hfound)

theorem holdsWellFormed_of_not_mem
    (hkeyword : keyword ∉ ["properties", "items", "additionalProperties", "anyOf"]) :
    HoldsWellFormed keyword argument :=
  heldEverywhere_of_not_mem hkeyword

theorem holdsWellFormed_bool {value : Bool} : HoldsWellFormed keyword (.bool value) :=
  heldEverywhere_bool

theorem holdsWellFormed_schema (hkeyword : keyword = "items" ∨ keyword = "additionalProperties")
    (hd : IsWellFormed d) : HoldsWellFormed keyword (.obj d) :=
  (heldEverywhere_schema_iff hkeyword).mpr hd

theorem holdsWellFormed_schemas_iff {schemas : List Json}
    (hkeyword : keyword = "anyOf" ∨ keyword = "items") :
    HoldsWellFormed keyword (.arr schemas) ↔
      ∀ schema, .obj schema ∈ schemas → IsWellFormed schema :=
  heldEverywhere_schemas_iff hkeyword

theorem holdsWellFormed_properties_iff {properties : Document} :
    HoldsWellFormed "properties" (.obj properties) ↔
      ∀ key schema, (key, .obj schema) ∈ properties → IsWellFormed schema :=
  heldEverywhere_properties_iff

end Parts

end ShapeSchema.Schema
