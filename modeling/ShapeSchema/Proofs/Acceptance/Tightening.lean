import ShapeSchema.Proofs.Acceptance.Keyword
import ShapeSchema.Schema.Fragment

/-!
Schemas that say at least as much as others, keyword by keyword. This is finer than accepting no
more values: it outlives what a derivation does to a schema that it does not look into, which is to
add null, to set the bounds of a number and to put a tag among the properties.
-/

namespace ShapeSchema.Schema

def hasForm (keyword : String) : Json → Bool
  | .str _ => keyword ∉ ["anyOf", "required", "properties"]
  | .arr _ => keyword ≠ "properties"
  | .obj _ => keyword ∉ ["type", "bsonType", "anyOf", "required"]
  | _ => keyword ∉ ["type", "bsonType", "anyOf", "required", "properties"]

structure IsTyped (schema : Document) : Prop where
  nodup : schema.keys.Nodup
  form : ∀ {keyword argument}, schema.get? keyword = some argument → hasForm keyword argument

theorem IsTyped.of_members {schema : Document} (hnodup : schema.keys.Nodup)
    (hform : ∀ member ∈ schema, hasForm member.1 member.2) : IsTyped schema where
  nodup := hnodup
  form hfound := hform _ (Document.mem_of_get? hfound)

theorem IsTyped.put {schema : Document} (h : IsTyped schema) {keyword : String} {argument : Json}
    (hform : hasForm keyword argument) : IsTyped (schema.put keyword argument) where
  nodup := Document.nodup_keys_put h.nodup keyword argument
  form hfound := by
    rcases Document.of_get?_put hfound with ⟨rfl, rfl⟩ | hfound
    · exact hform
    · exact h.form hfound

/-- Whether a schema says under each keyword of another one at least as much as that one. -/
structure Tightens (d e : Document) : Prop where
  left : IsTyped d
  right : IsTyped e
  keys : ∀ {keyword}, e.has keyword → d.has keyword
  properties : ∀ {key}, (Tagging.propertiesOf e).has key → (Tagging.propertiesOf d).has key
  passes : ∀ {reading keyword value},
    passes reading d keyword value → passes reading e keyword value

namespace Tightens

variable {d e : Document}

theorem refl (hd : IsTyped d) : Tightens d d where
  left := hd
  right := hd
  keys h := h
  properties h := h
  passes h := h

/-- What says more accepts no more. -/
theorem within (h : Tightens d e) : Within d e := by
  intro reading value haccepts
  rw [accepts_iff_passes h.right.nodup]
  intro keyword
  exact h.passes ((accepts_iff_passes h.left.nodup).mp haccepts keyword)

/-- Every schema says more than the one that says nothing. -/
theorem free (hd : IsTyped d) : Tightens d [] where
  left := hd
  right := .of_members List.nodup_nil (by simp)
  keys h := by simp [Document.has] at h
  properties h := by
    rw [propertiesOf_of_none (Document.get?_nil _)] at h
    simp [Document.has] at h
  passes _ := passes_of_not_has rfl

/-- A schema with a type says more than its type alone. -/
theorem of_type (hd : IsTyped d) {name : String} (htype : d.get? "type" = some (.str name)) :
    Tightens d [("type", .str name)] where
  left := hd
  right := .of_members (by simp [Document.keys]) (by simp [hasForm])
  keys {keyword} h := by
    have hkeyword : "type" = keyword := by simpa [Document.has] using h
    exact Document.has_iff.mpr ⟨.str name, hkeyword ▸ htype⟩
  properties h := by
    rw [propertiesOf_of_none (by simp [Document.get?_cons])] at h
    simp [Document.has] at h
  passes {reading keyword value} h := by
    by_cases hkeyword : keyword = "type"
    · subst hkeyword
      rw [passes_of_get? htype, acceptsKeyword_type] at h
      rw [passes_of_get? (Document.get?_cons _ _ _ _), acceptsKeyword_type]
      exact h
    · exact passes_of_not_has (by simpa [Document.has] using fun h => hkeyword h.symm)

end Tightens

def MemberTightens (d e : Document) (x y : String × Json) : Prop :=
  x.1 = y.1 ∧ ∀ reading value,
    acceptsKeyword reading d x.1 x.2 value → acceptsKeyword reading e y.1 y.2 value

theorem MemberTightens.same {d e : Document} {member : String × Json}
    (hbeside : ∀ key ∈ beside member.1, d.get? key = e.get? key) :
    MemberTightens d e member member :=
  ⟨rfl, fun _ _ h => (acceptsKeyword_congr hbeside).symm.trans h⟩

theorem Tightens.of_members {d e : Document} (hd : IsTyped d) (he : IsTyped e)
    (hprops : ∀ {key}, (Tagging.propertiesOf e).has key → (Tagging.propertiesOf d).has key)
    (h : List.Forall₂ (MemberTightens d e) d e) : Tightens d e := by
  have hfind : ∀ {xs ys : Document}, List.Forall₂ (MemberTightens d e) xs ys → ∀ keyword,
      Option.Rel (fun x y => MemberTightens d e (keyword, x) (keyword, y))
        (xs.get? keyword) (ys.get? keyword) := by
    intro xs ys hmembers keyword
    induction hmembers with
    | nil => exact .none
    | @cons x y _ _ hhead _ ih =>
      obtain ⟨k, argument⟩ := x
      obtain ⟨_, other⟩ := y
      obtain ⟨rfl, hhead⟩ := hhead
      rw [Document.get?_cons, Document.get?_cons]
      by_cases hkeyword : keyword = k
      · rw [if_pos hkeyword, if_pos hkeyword, hkeyword]
        exact .some ⟨rfl, hhead⟩
      · rw [if_neg hkeyword, if_neg hkeyword]
        exact ih
  refine ⟨hd, he, fun {keyword} hhas => ?_, hprops, fun {reading keyword value} hpasses => ?_⟩
  · obtain ⟨argument, hfound⟩ := Document.has_iff.mp hhas
    have hrel := hfind h keyword
    rw [hfound] at hrel
    cases hstrict : d.get? keyword with
    | none => rw [hstrict] at hrel; cases hrel
    | some given => exact Document.has_iff.mpr ⟨given, hstrict⟩
  · have hrel := hfind h keyword
    cases hloose : e.get? keyword with
    | none => simp [Schema.passes, hloose]
    | some argument =>
      cases hstrict : d.get? keyword with
      | none => rw [hstrict, hloose] at hrel; cases hrel
      | some given =>
        rw [hstrict, hloose] at hrel
        cases hrel with
        | some hmember =>
          rw [passes_of_get? hstrict] at hpasses
          rw [passes_of_get? hloose]
          exact hmember.2 _ _ hpasses

end ShapeSchema.Schema
