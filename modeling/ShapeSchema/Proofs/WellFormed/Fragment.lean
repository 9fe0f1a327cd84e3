import ShapeSchema.Proofs.Derivation.Unrolling
import ShapeSchema.Proofs.WellFormed.Subschemas

/-!
The schemas that a derivation puts together are well formed. Beside that it keeps of each schema
what the rules rely on: no type specification is null alone, values are listed for tags only, and
bounds are set last.
-/

namespace ShapeSchema.Schema

/-- What a derivation keeps of every schema that it puts into another one. -/
structure IsCoherent (schema : Document) : Prop where
  typed : IsTyped schema
  wellFormed : IsWellFormed schema
  notNull : schema.get? "type" ≠ some (.str "null")
  unlisted : schema.get? "enum" = none

/-- What a derivation keeps of the schemas of shapes, which have no bounds from constraints. -/
structure IsFresh (schema : Document) : Prop extends IsCoherent schema where
  unbounded : IsUnbounded schema

theorem IsFresh.of_members {d : Document} (h : Outdoes d d) (hregular : IsRegular d)
    (hheld : ∀ member ∈ d, HoldsWellFormed member.1 member.2)
    (hnull : d.get? "type" ≠ some (.str "null")) (henum : "enum" ∉ d.keys) : IsFresh d where
  typed := h.tightens.left
  wellFormed := isWellFormed_iff_members.mpr ⟨hregular, hheld⟩
  notNull := hnull
  unlisted := Document.get?_eq_none henum
  unbounded := h.unbounded

section Regular

def dependentKeys : List String :=
  ["type", "bsonType", "anyOf", "required", "minItems", "exclusiveMinimum", "exclusiveMaximum"]

/-- A schema that names its kind is regular if nothing else in it has to fit other keywords. -/
theorem IsRegular.of_kind {kind name : String} (hkind : kind = "type" ∨ kind = "bsonType")
    {rest : Document} (hfree : ∀ key ∈ dependentKeys, key ∉ rest.keys)
    (hitems : ∀ schemas, rest.get? "items" ≠ some (.arr schemas)) :
    IsRegular ((kind, .str name) :: rest) := by
  have hnone : ∀ key ∈ dependentKeys, rest.get? key = none := fun key hkey =>
    Document.get?_eq_none (hfree key hkey)
  simp only [dependentKeys, List.forall_mem_cons] at hnone
  obtain ⟨htype, hbson, hany, hrequired, hleast, hlower, hupper, -⟩ := hnone
  rcases hkind with rfl | rfl <;> constructor <;>
    simp_all [has_eq_isSome, Document.get?_cons, IsTypeSpec]

theorem IsFresh.of_kind {kind name : String} (hkind : kind = "type" ∨ kind = "bsonType")
    (hname : name ≠ "null") {rest : Document}
    (h : Outdoes ((kind, .str name) :: rest) ((kind, .str name) :: rest))
    (hfree : ∀ key ∈ "enum" :: dependentKeys, key ∉ rest.keys)
    (hitems : ∀ schemas, rest.get? "items" ≠ some (.arr schemas))
    (hheld : ∀ member ∈ rest, HoldsWellFormed member.1 member.2) :
    IsFresh ((kind, .str name) :: rest) := by
  obtain ⟨henum, hfree⟩ := List.forall_mem_cons.mp hfree
  refine .of_members h (.of_kind hkind hfree hitems) ?_ ?_ ?_
  · refine List.forall_mem_cons.mpr ⟨holdsWellFormed_of_not_mem ?_, hheld⟩
    rcases hkind with rfl | rfl <;> simp
  · have htype : rest.get? "type" = none :=
      Document.get?_eq_none (hfree "type" (by simp [dependentKeys]))
    rcases hkind with rfl | rfl <;> simp [Document.get?_cons, htype, hname]
  · rcases hkind with rfl | rfl <;> simpa [Document.keys] using henum

def objectWith (properties : Document) (keys : List String) (further : Document) : Document :=
  [("type", .str "object"), ("properties", .obj properties)] ++
    (if keys.isEmpty then [] else [("required", .arr (keys.map .str))]) ++ further

/-- Object schemas are regular if they require properties only, each of them once. -/
theorem isRegular_objectWith {properties further : Document} {keys : List String}
    (hnodup : keys.Nodup) (hlisted : ∀ key ∈ keys, properties.has key)
    (hfurther : ∀ key ∈ further.keys, key = "additionalProperties") :
    IsRegular (objectWith properties keys further) := by
  have hnone : ∀ key, key ≠ "additionalProperties" → further.get? key = none := fun key hne =>
    Document.get?_eq_none fun hmem => hne (hfurther key hmem)
  have hget : ∀ key, key ≠ "additionalProperties" → (objectWith properties keys further).get? key =
      if key = "type" then some (.str "object")
      else if key = "properties" then some (.obj properties)
      else if key = "required" ∧ keys ≠ [] then some (.arr (keys.map .str)) else none := by
    intro key hne
    unfold objectWith
    rw [Document.get?_append, Document.get?_append, hnone key hne, Option.or_none]
    cases keys with
    | nil => simp [Document.get?_cons]
    | cons first rest =>
      by_cases htype : key = "type" <;> by_cases hproperties : key = "properties" <;>
        simp [Document.get?_cons, htype, hproperties]
  constructor
  case required =>
    intro argument hfound
    rw [hget "required" (by decide)] at hfound
    by_cases hkeys : keys = []
    · simp [hkeys] at hfound
    · have hargument : argument = .arr (keys.map .str) := by simpa [hkeys, eq_comm] using hfound
      have hproperties := hget "properties" (by decide)
      exact ⟨keys, properties, hargument, by simpa using hproperties, hkeys, hnodup, hlisted⟩
  all_goals simp (disch := decide) [List.filter_cons, has_eq_isSome, hget, IsTypeSpec]

theorem isWellFormed_objectWith {properties further : Document} {keys : List String}
    (hnodup : keys.Nodup) (hlisted : ∀ key ∈ keys, properties.has key)
    (hfurther : ∀ key ∈ further.keys, key = "additionalProperties")
    (hproperties : HoldsWellFormed "properties" (.obj properties))
    (hheld : ∀ member ∈ further, HoldsWellFormed member.1 member.2) :
    IsWellFormed (objectWith properties keys further) := by
  refine isWellFormed_iff_members.mpr ⟨isRegular_objectWith hnodup hlisted hfurther, ?_⟩
  unfold objectWith
  rw [List.forall_mem_append, List.forall_mem_append]
  refine ⟨⟨?_, ?_⟩, hheld⟩
  · simp [hproperties, holdsWellFormed_of_not_mem]
  · split <;> simp [holdsWellFormed_of_not_mem]

end Regular

section Containers

variable {d : Document}

theorem isFresh_primitive (kind : PrimitiveKind) : IsFresh (primitive kind) := by
  have houtdoes : Outdoes (primitive kind) (primitive kind) := .refl (isTyped_primitive kind)
    (by cases kind <;> simp [boundKeys, primitive, Document.keys])
  cases kind <;> exact .of_kind (by simp) (by simp) houtdoes
    (by simp [dependentKeys, Document.keys]) (by simp [Document.get?_cons])
    (by simp [holdsWellFormed_of_not_mem])

theorem isFresh_array (hd : IsWellFormed d) : IsFresh (array d) := by
  refine .of_kind (.inl rfl) (by simp) (outdoes_array (.refl d)) ?_ ?_ ?_
  · simp [dependentKeys, Document.keys]
  · simp [Document.get?_cons]
  · simp [holdsWellFormed_schema (.inl rfl) hd]

theorem isFresh_set (hd : IsWellFormed d) : IsFresh (set d) := by
  refine .of_kind (.inl rfl) (by simp) (outdoes_set (.refl d)) ?_ ?_ ?_
  · simp [dependentKeys, Document.keys]
  · simp [Document.get?_cons]
  · simp [holdsWellFormed_schema (.inl rfl) hd, holdsWellFormed_bool]

/-- A schema that says nothing but its kind is in order. -/
theorem isFresh_kind {kind name : String} (hkind : kind = "type" ∨ kind = "bsonType")
    (hname : name ≠ "null") : IsFresh [(kind, .str name)] := by
  refine .of_kind hkind hname (.refl (.of_members ?_ ?_) ?_) ?_ ?_ ?_
  · simp [Document.keys]
  · rcases hkind with rfl | rfl <;> simp [hasForm]
  · rcases hkind with rfl | rfl <;> simp [boundKeys, Document.keys]
  · simp [Document.keys]
  · simp
  · simp

theorem isFresh_nil : IsFresh [] := by
  refine .of_members (.refl (.of_members ?_ ?_) ?_) ?_ ?_ ?_ ?_
  · simp [Document.keys]
  · simp
  · simp [Document.keys]
  · constructor <;> simp [Document.has]
  · simp
  · simp
  · simp [Document.keys]

theorem isFresh_unit : IsFresh unit := by
  refine .of_kind (.inl rfl) (by simp) (.refl (.of_members ?_ ?_) ?_) ?_ ?_ ?_
  · simp [Document.keys]
  · simp [hasForm, count]
  · simp [boundKeys, Document.keys]
  · simp [dependentKeys, Document.keys]
  · simp [Document.get?_cons]
  · simp [holdsWellFormed_of_not_mem]

/-- The schema of a map can be refused, but is in order if it is not. -/
theorem yields_map (key : PrimitiveKind) (hd : IsWellFormed d) :
    Yields IsFresh (Schema.map key (.obj d)) := by
  have hsurvives := survives_map key (Within.refl d)
  unfold Schema.map at hsurvives ⊢
  split
  · next hkey =>
    obtain ⟨_, hsame, houtdoes⟩ := hsurvives _ (if_pos hkey)
    rw [if_pos hkey] at hsame
    cases hsame
    refine IsFresh.of_kind (.inl rfl) (by simp) houtdoes ?_ ?_ ?_
    · simp [dependentKeys, Document.keys]
    · simp [Document.get?_cons]
    · simp [holdsWellFormed_schema (.inr rfl) hd]
  · trivial

theorem isRegular_fixedArray (length : Nat) : IsRegular (fixedArray d length) := by
  constructor
  case counts =>
    intro least greatest hleast hgreatest
    cases hleast
    cases hgreatest
    exact ⟨length, length, rfl, rfl, Nat.le_refl _⟩
  all_goals simp [fixedArray, has_eq_isSome, Document.get?_cons, IsTypeSpec]

theorem isFresh_fixedArray (length : Nat) (hd : IsWellFormed d) :
    IsFresh (fixedArray d length) := by
  refine .of_members (outdoes_fixedArray length (.refl d)) (isRegular_fixedArray length) ?_ ?_ ?_
  · have hitems := holdsWellFormed_schema (.inl rfl) hd
    simpa [fixedArray, holdsWellFormed_of_not_mem] using hitems
  · simp [fixedArray, Document.get?_cons]
  · simp [fixedArray, Document.keys]

theorem isRegular_tuple (ds : List Document) : IsRegular (tuple ds) := by
  constructor
  case counts =>
    intro least greatest hleast hgreatest
    cases hleast
    cases hgreatest
    exact ⟨ds.length, ds.length, rfl, rfl, Nat.le_refl _⟩
  all_goals simp [tuple, has_eq_isSome, Document.get?_cons, IsTypeSpec]

theorem isFresh_tuple {ds : List Document} (hds : ∀ d ∈ ds, IsWellFormed d) :
    IsFresh (tuple ds) := by
  have hwithin : List.Forall₂ Within ds ds := List.forall₂_same.mpr fun d _ => .refl d
  refine .of_members (outdoes_tuple hwithin) (isRegular_tuple ds) ?_ ?_ ?_
  · have hitems : HoldsWellFormed "items" (.arr (ds.map .obj)) := by
      refine (holdsWellFormed_schemas_iff (.inr rfl)).mpr fun d hmem => ?_
      obtain ⟨d, hd, ⟨⟩⟩ := List.mem_map.mp hmem
      exact hds d hd
    simpa [tuple, holdsWellFormed_of_not_mem] using hitems
  · simp [tuple, Document.get?_cons]
  · simp [tuple, Document.keys]

theorem objectSchema_eq (ps : List Context.Property) (x : Json) :
    Context.objectSchema ps x = objectWith (ps.map fun p => (p.key, .obj p.schema))
      ((ps.filter (·.required)).map (·.key)) [("additionalProperties", x)] := by
  have hkeys : (ps.filter (·.required)).map (Json.str ·.key) =
      ((ps.filter (·.required)).map (·.key)).map .str := by
    rw [List.map_map]
    rfl
  simp only [Context.objectSchema, objectWith, hkeys, List.isEmpty_map]

/-- The schema of an object without repeated keys is in order if those of its properties are. -/
theorem isFresh_objectSchema {ps : List Context.Property} {x : Json}
    (hnodup : (ps.map (·.key)).Nodup) (hps : ∀ p ∈ ps, IsWellFormed p.schema)
    (hx : HoldsWellFormed "additionalProperties" x) : IsFresh (Context.objectSchema ps x) where
  typed := isTyped_objectSchema ps x
  wellFormed := by
    rw [objectSchema_eq]
    refine isWellFormed_objectWith (hnodup.sublist (List.filter_sublist.map _)) ?_ ?_ ?_ ?_
    · intro key hkey
      obtain ⟨p, hp, rfl⟩ := List.mem_map.mp hkey
      rw [Document.has_eq_mem]
      exact List.mem_map.mpr ⟨_, List.mem_map_of_mem (List.mem_of_mem_filter hp), rfl⟩
    · simp [Document.keys]
    · refine holdsWellFormed_properties_iff.mpr fun key schema hmem => ?_
      obtain ⟨p, hp, ⟨⟩⟩ := List.mem_map.mp hmem
      exact hps p hp
    · simpa using hx
  notNull := by simp [Context.objectSchema, Document.get?_cons]
  unlisted := Document.get?_eq_none fun hkey =>
    absurd ((keys_objectSchema ps x).subset hkey) (by decide)
  unbounded := .of_keys (boundKeys_objectSchema ps x)

end Containers

end ShapeSchema.Schema
