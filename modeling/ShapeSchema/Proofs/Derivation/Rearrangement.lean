import ShapeSchema.Proofs.Constraints.Check
import ShapeSchema.Proofs.Derivation.Unrolling
import ShapeSchema.Proofs.Json.Reordering

/-!
Schemas that say the same up to the order of members, of required keys and of alternatives. Every
rule that builds a schema keeps this, and none looks at an order before it fails.
-/

namespace ShapeSchema.Schema

open Json (Equivalent)

/-- The keywords whose items may stand in any order. -/
def looseKeys : List String := ["required", "anyOf"]

/-- Whether a schema has each keyword once with an argument of the right form, and so have all
objects in it, and all numbers in it are finite. -/
structure IsTidy (d : Document) : Prop where
  typed : IsTyped d
  proper : (Json.obj d).IsProper

theorem IsTidy.of_members {d : Document} (htyped : IsTyped d)
    (hproper : ∀ member ∈ d, member.2.IsProper) : IsTidy d :=
  ⟨htyped, Json.isProper_obj_iff.mpr ⟨htyped.nodup, hproper⟩⟩

theorem IsTidy.isProper {d : Document} (h : IsTidy d) {keyword : String} {argument : Json}
    (hfound : d.get? keyword = some argument) : argument.IsProper :=
  Json.isProper_of_get? h.proper hfound

structure SaysSame (d e : Document) : Prop where
  left : IsTidy d
  right : IsTidy e
  same : Equivalent looseKeys false (.obj d) (.obj e)

def MemberSame (x y : String × Json) : Prop :=
  x.1 = y.1 ∧ Equivalent looseKeys (looseKeys.contains x.1) x.2 y.2

namespace SaysSame

variable {d e f : Document}

theorem refl (hd : IsTidy d) : SaysSame d d :=
  ⟨hd, hd, .refl hd.proper⟩

theorem trans (hde : SaysSame d e) (hef : SaysSame e f) : SaysSame d f :=
  ⟨hde.left, hef.right, hde.same.trans hef.same⟩

theorem get? (h : SaysSame d e) (keyword : String) :
    Option.Rel (Equivalent looseKeys (looseKeys.contains keyword)) (d.get? keyword)
      (e.get? keyword) :=
  h.same.get? h.left.typed.nodup keyword

theorem of_get? (hd : IsTidy d) (he : IsTidy e) (h : ∀ keyword,
    Option.Rel (Equivalent looseKeys (looseKeys.contains keyword)) (d.get? keyword)
      (e.get? keyword)) : SaysSame d e :=
  ⟨hd, he, (Json.equivalent_obj_iff_get? hd.typed.nodup).mpr h⟩

theorem of_members (hd : IsTidy d) (he : IsTidy e) (h : List.Forall₂ MemberSame d e) :
    SaysSame d e :=
  ⟨hd, he, Json.equivalent_obj_of_forall₂ hd.typed.nodup (.refl d) h⟩

end SaysSame

inductive HeldSame : Json → Json → Prop
  | intro {d e : Document} (same : SaysSame d e) : HeldSame (.obj d) (.obj e)

namespace HeldSame

variable {x y : Json}

theorem left (h : HeldSame x y) : x.IsProper := by
  cases h with
  | intro h => exact h.left.proper

theorem right (h : HeldSame x y) : y.IsProper := by
  cases h with
  | intro h => exact h.right.proper

theorem same (h : HeldSame x y) {loose : Bool} : Equivalent looseKeys loose x y := by
  cases h with
  | intro h =>
    exact (Json.equivalent_obj_iff_get? h.left.typed.nodup).mpr h.get?

end HeldSame

section Lists

theorem left_of_held {xs ys : List Json} (h : List.Forall₂ HeldSame xs ys) :
    ∀ x ∈ xs, x.IsProper := by
  intro x hmem
  obtain ⟨_, hxy⟩ := exists_of_forall₂ h x hmem
  exact hxy.left

theorem right_of_held {xs ys : List Json} (h : List.Forall₂ HeldSame xs ys) :
    ∀ y ∈ ys, y.IsProper := by
  intro y hmem
  obtain ⟨_, hxy⟩ := exists_of_forall₂ h.flip y hmem
  exact hxy.right

theorem equivalent_arr_of_held {loose : Bool} {xs arranged ys : List Json}
    (hperm : if loose then xs.Perm arranged else xs = arranged)
    (h : List.Forall₂ HeldSame arranged ys) : Equivalent looseKeys loose (.arr xs) (.arr ys) := by
  obtain ⟨moved, hmoved, hperm⟩ := Json.arranged_forall₂ hperm h
  exact Json.equivalent_arr_iff.mpr ⟨ys, rfl, moved, hperm, hmoved.imp fun _ _ hxy => hxy.same⟩

end Lists

theorem MemberSame.refl {keyword : String} {argument : Json} (h : argument.IsProper) :
    MemberSame (keyword, argument) (keyword, argument) :=
  ⟨rfl, .refl h⟩

theorem MemberSame.held {keyword : String} {d e : Document} (h : SaysSame d e) :
    MemberSame (keyword, .obj d) (keyword, .obj e) :=
  ⟨rfl, (HeldSame.intro h).same⟩

section Containers

variable {d e : Document}

theorem isTidy_primitive (kind : PrimitiveKind) : IsTidy (primitive kind) :=
  .of_members (isTyped_primitive kind) (by cases kind <;> simp [primitive, count])

theorem isTidy_array (hd : IsTidy d) : IsTidy (array d) :=
  .of_members (outdoes_array (.refl d)).tightens.left (by simp [array, hd.proper])

theorem isTidy_set (hd : IsTidy d) : IsTidy (set d) :=
  .of_members (outdoes_set (.refl d)).tightens.left (by simp [set, hd.proper])

theorem isTidy_fixedArray (length : Nat) (hd : IsTidy d) : IsTidy (fixedArray d length) :=
  .of_members (outdoes_fixedArray length (.refl d)).tightens.left
    (by simp [fixedArray, count, hd.proper])

theorem isTidy_tuple {ds : List Document} (hds : ∀ d ∈ ds, IsTidy d) : IsTidy (tuple ds) := by
  have hwithin : List.Forall₂ Within ds ds := List.forall₂_same.mpr fun d _ => .refl d
  have hitems : (Json.arr (ds.map .obj)).IsProper := by
    refine Json.isProper_arr_iff.mpr (List.forall_mem_map.mpr fun d hd => ?_)
    exact (hds d hd).proper
  exact .of_members (outdoes_tuple hwithin).tightens.left (by simp [tuple, count, hitems])

theorem SaysSame.array (h : SaysSame d e) : SaysSame (array d) (array e) :=
  .of_members (isTidy_array h.left) (isTidy_array h.right)
    (.cons (.refl (by simp)) (.cons (.held h) .nil))

theorem SaysSame.set (h : SaysSame d e) : SaysSame (set d) (set e) :=
  .of_members (isTidy_set h.left) (isTidy_set h.right)
    (.cons (.refl (by simp)) (.cons (.refl (by simp)) (.cons (.held h) .nil)))

theorem SaysSame.fixedArray (length : Nat) (h : SaysSame d e) :
    SaysSame (fixedArray d length) (fixedArray e length) :=
  .of_members (isTidy_fixedArray length h.left) (isTidy_fixedArray length h.right)
    (.cons (.refl (by simp)) (.cons (.refl (by simp [count]))
      (.cons (.refl (by simp [count])) (.cons (.held h) .nil))))

theorem SaysSame.tuple {ds es : List Document} (h : List.Forall₂ SaysSame ds es) :
    SaysSame (tuple ds) (tuple es) := by
  have hds : ∀ d ∈ ds, IsTidy d := fun d hd => by
    obtain ⟨_, hde⟩ := exists_of_forall₂ h d hd
    exact hde.left
  have hes : ∀ e ∈ es, IsTidy e := fun e he => by
    obtain ⟨_, hde⟩ := exists_of_forall₂ h.flip e he
    exact hde.right
  have hheld : List.Forall₂ HeldSame (ds.map .obj) (es.map .obj) :=
    List.rel_map (fun _ _ => .intro) h
  have hcount : count ds.length = count es.length := by rw [h.length_eq]
  refine .of_members (isTidy_tuple hds) (isTidy_tuple hes) ?_
  refine .cons (.refl (by simp)) (.cons ⟨rfl, ?_⟩ (.cons (.refl (by simp)) ?_))
  · exact equivalent_arr_of_held rfl hheld
  · rw [hcount]
    exact .cons (.refl (by simp [count])) (.cons (.refl (by simp [count])) .nil)

structure FurtherSame (x y : Json) : Prop where
  left : x.IsProper
  right : y.IsProper
  same : Equivalent looseKeys false x y

theorem FurtherSame.held (h : SaysSame d e) : FurtherSame (.obj d) (.obj e) :=
  ⟨h.left.proper, h.right.proper, h.same⟩

theorem FurtherSame.bool (allowed : Bool) : FurtherSame (.bool allowed) (.bool allowed) :=
  ⟨trivial, trivial, rfl⟩

theorem SaysSame.map (key : PrimitiveKind) (h : SaysSame d e) :
    Survives SaysSame (map key (.obj d)) (map key (.obj e)) := by
  have htidy : ∀ {d}, IsTidy d →
      IsTidy [("type", .str "object"), ("additionalProperties", .obj d)] := fun {d} hd =>
    .of_members (.of_members (by simp [Document.keys]) (by simp [hasForm])) (by simp [hd.proper])
  unfold Schema.map
  split
  · refine .pure (.of_members (htidy h.left) (htidy h.right) ?_)
    exact .cons (.refl (by simp)) (.cons (.held h) .nil)
  · exact .error

end Containers

section Objects

variable {ps arranged qs : List Context.Property} {x y : Json}

theorem isProper_properties (hnodup : (ps.map (·.key)).Nodup) (hps : ∀ p ∈ ps, IsTidy p.schema) :
    (Json.obj (ps.map fun p => (p.key, .obj p.schema))).IsProper := by
  refine Json.isProper_obj_iff.mpr ⟨?_, List.forall_mem_map.mpr fun p hp => (hps p hp).proper⟩
  simpa [Document.keys, Function.comp_def] using hnodup

theorem isTidy_objectSchema (hnodup : (ps.map (·.key)).Nodup) (hps : ∀ p ∈ ps, IsTidy p.schema)
    (hx : x.IsProper) : IsTidy (Context.objectSchema ps x) := by
  have hproperties := isProper_properties hnodup hps
  refine .of_members (isTyped_objectSchema ps x) ?_
  unfold Context.objectSchema
  dsimp only
  split
  · simp [hproperties, hx]
  · have hrequired : (Json.arr ((ps.filter (·.required)).map (Json.str ·.key))).IsProper :=
      Json.isProper_arr_iff.mpr (List.forall_mem_map.mpr fun _ _ => trivial)
    simp [hproperties, hrequired, hx]

/-- The schema of an object says the same if its properties do in some order. -/
theorem SaysSame.objectSchema (hperm : ps.Perm arranged)
    (h : List.Forall₂ (Context.Property.Corresponds SaysSame) arranged qs)
    (hnodup : (ps.map (·.key)).Nodup) (hfurther : FurtherSame x y) :
    SaysSame (Context.objectSchema ps x) (Context.objectSchema qs y) := by
  have hps : ∀ p ∈ ps, IsTidy p.schema := fun p hp => by
    obtain ⟨_, hpq⟩ := exists_of_forall₂ h p (hperm.mem_iff.mp hp)
    exact hpq.schema.left
  have hqs : ∀ q ∈ qs, IsTidy q.schema := fun q hq => by
    obtain ⟨_, hpq⟩ := exists_of_forall₂ h.flip q hq
    exact hpq.schema.right
  have hkeys : arranged.map (·.key) = qs.map (·.key) :=
    List.forall₂_eq_eq_eq ▸ List.rel_map (fun _ _ hpq => hpq.key) h
  have hnodup' : (qs.map (·.key)).Nodup := hkeys ▸ (hperm.map (·.key)).nodup_iff.mp hnodup
  have hproperties : Equivalent looseKeys false (.obj (ps.map fun p => (p.key, .obj p.schema)))
      (.obj (qs.map fun q => (q.key, .obj q.schema))) := by
    refine Json.equivalent_obj_of_forall₂ ?_ (hperm.map _) ?_
    · simpa [Document.keys, Function.comp_def] using hnodup
    · exact List.rel_map (fun _ _ hpq => ⟨hpq.key, (HeldSame.intro hpq.schema).same⟩) h
  have hrequired : ((ps.filter (·.required)).map (Json.str ·.key)).Perm
      ((qs.filter (·.required)).map (Json.str ·.key)) := by
    rw [← required_eq h]
    exact (hperm.filter _).map _
  refine .of_members (isTidy_objectSchema hnodup hps hfurther.left)
    (isTidy_objectSchema hnodup' hqs hfurther.right) ?_
  refine List.rel_append (.cons (.refl trivial) (.cons ⟨rfl, hproperties⟩ ?_))
    (.cons ⟨rfl, hfurther.same⟩ .nil)
  rw [hrequired.isEmpty_eq]
  split
  · exact .nil
  · have hsame : Equivalent looseKeys true (.arr ((ps.filter (·.required)).map (Json.str ·.key)))
        (.arr ((qs.filter (·.required)).map (Json.str ·.key))) := by
      refine Json.equivalent_arr_iff.mpr ⟨_, rfl, _, hrequired, List.forall₂_same.mpr ?_⟩
      exact List.forall_mem_map.mpr fun _ _ => .refl trivial
    exact .cons ⟨rfl, hsame⟩ .nil

end Objects

section Adjustments

variable {d e : Document}

theorem IsTidy.put (hd : IsTidy d) {keyword : String} {argument : Json}
    (hform : hasForm keyword argument) (hproper : argument.IsProper) :
    IsTidy (d.put keyword argument) where
  typed := hd.typed.put hform
  proper := by
    have hnodup := Document.nodup_keys_put hd.typed.nodup keyword argument
    refine Json.isProper_obj_iff.mpr ⟨hnodup, fun member hmem => ?_⟩
    have hfound := Document.get?_of_mem hnodup (show (member.1, member.2) ∈ _ from hmem)
    rcases Document.of_get?_put hfound with ⟨_, heq⟩ | hfound
    · exact heq ▸ hproper
    · exact hd.isProper hfound

theorem SaysSame.put (h : SaysSame d e) {keyword : String} {x y : Json}
    (hx : hasForm keyword x ∧ x.IsProper) (hy : hasForm keyword y ∧ y.IsProper)
    (hsame : Equivalent looseKeys (looseKeys.contains keyword) x y) :
    SaysSame (d.put keyword x) (e.put keyword y) := by
  refine .of_get? (h.left.put hx.1 hx.2) (h.right.put hy.1 hy.2) fun sought => ?_
  rw [Document.get?_put, Document.get?_put]
  split
  · next heq => exact heq ▸ .some hsame
  · exact h.get? sought

/-- What is found under a keyword in one schema, is found in the other one. -/
theorem SaysSame.find (h : SaysSame d e) {keyword : String} {x : Json}
    (hfound : d.get? keyword = some x) : ∃ y, e.get? keyword = some y ∧
      Equivalent looseKeys (looseKeys.contains keyword) x y := by
  have hget := h.get? keyword
  rw [hfound] at hget
  generalize e.get? keyword = found at hget
  cases hget with
  | some hsame => exact ⟨_, rfl, hsame⟩

theorem SaysSame.find_none (h : SaysSame d e) {keyword : String}
    (hnone : d.get? keyword = none) : e.get? keyword = none := by
  have hget := h.get? keyword
  rw [hnone] at hget
  generalize e.get? keyword = found at hget
  cases hget
  rfl

/-- A type specification with null added says the same if the given one does. -/
theorem withNull_same (keyword : String) (hkeyword : keyword ∈ ["bsonType", "type"]) {x y : Json}
    (hx : hasForm keyword x ∧ x.IsProper) (hy : y.IsProper) (h : Equivalent looseKeys false x y) :
    ∃ x' y', withNull x = .ok x' ∧ withNull y = .ok y' ∧ (hasForm keyword x' ∧ x'.IsProper) ∧
      (hasForm keyword y' ∧ y'.IsProper) ∧ Equivalent looseKeys false x' y' := by
  have hlist : ∀ items, hasForm keyword (.arr items) := fun items => by
    rcases List.mem_pair.mp hkeyword with rfl | rfl <;> rfl
  have hnull : ∀ names : List Json, (∀ name ∈ names, name.IsProper) →
      (Json.arr (names ++ [.str "null"])).IsProper := fun names hnames => by
    refine Json.isProper_arr_iff.mpr (List.forall_mem_append.mpr ⟨hnames, ?_⟩)
    simp
  cases x with
  | str name =>
    obtain rfl := Json.equivalent_str_iff.mp h
    by_cases hname : name = "null"
    · exact ⟨.str name, .str name, by rw [withNull, if_pos hname], by rw [withNull, if_pos hname],
        hx, hx, h⟩
    · have hproper : (Json.arr [.str name, .str "null"]).IsProper := hnull [.str name]
        (by simp)
      exact ⟨.arr [.str name, .str "null"], .arr [.str name, .str "null"],
        by rw [withNull, if_neg hname], by rw [withNull, if_neg hname], ⟨hlist _, hproper⟩,
        ⟨hlist _, hproper⟩, .refl hproper⟩
  | arr names =>
    obtain ⟨others, rfl, _⟩ := Json.equivalent_arr_iff.mp h
    have hmem : Json.str "null" ∈ names ↔ .str "null" ∈ others := h.mem_iff
      (fun _ _ => Json.equivalent_str_iff.mp) fun _ _ => Json.eq_of_equivalent_str
    by_cases hnames : Json.str "null" ∈ names
    · exact ⟨.arr names, .arr others, by rw [withNull, if_pos hnames],
        by rw [withNull, if_pos (hmem.mp hnames)], hx, ⟨hlist _, hy⟩, h⟩
    · exact ⟨.arr (names ++ [.str "null"]), .arr (others ++ [.str "null"]),
        by rw [withNull, if_neg hnames], by rw [withNull, if_neg (hmem.not.mp hnames)],
        ⟨hlist _, hnull names (Json.isProper_arr_iff.mp hx.2)⟩,
        ⟨hlist _, hnull others (Json.isProper_arr_iff.mp hy)⟩, h.append_same Json.isProper_str⟩
  | _ => rcases List.mem_pair.mp hkeyword with rfl | rfl <;> simp [hasForm] at hx

theorem eq_nullOnly {argument : Json} (hproper : argument.IsProper)
    (h : Equivalent looseKeys false nullOnly argument) : argument = nullOnly :=
  Json.eq_of_equivalent_single hproper h

/-- Adding null to schemas that say the same gives such schemas. -/
theorem SaysSame.widened (h : SaysSame d e) :
    Survives SaysSame (widenNullable d) (widenNullable e) := by
  cases hbson : d.get? "bsonType" with
  | some spec =>
    obtain ⟨other, hother, hsame⟩ := h.find hbson
    obtain ⟨x, y, hx, hy, hformx, hformy, hxy⟩ := withNull_same "bsonType" (by simp)
      ⟨h.left.typed.form hbson, h.left.isProper hbson⟩ (h.right.isProper hother) hsame
    simp only [widenNullable, hbson, hother, hx, hy]
    exact .pure (h.put hformx hformy hxy)
  | none =>
    have hbson' := h.find_none hbson
    cases htype : d.get? "type" with
    | some spec =>
      obtain ⟨other, hother, hsame⟩ := h.find htype
      obtain ⟨x, y, hx, hy, hformx, hformy, hxy⟩ := withNull_same "type" (by simp)
        ⟨h.left.typed.form htype, h.left.isProper htype⟩ (h.right.isProper hother) hsame
      simp only [widenNullable, hbson, hbson', htype, hother, hx, hy]
      exact .pure (h.put hformx hformy hxy)
    | none =>
      have htype' := h.find_none htype
      cases hany : d.get? "anyOf" with
      | none =>
        simp only [widenNullable, hbson, hbson', htype, htype', hany, h.find_none hany]
        exact .pure h
      | some argument =>
        obtain ⟨other, hother, hsame⟩ := h.find hany
        have hform := h.left.typed.form hany
        cases argument with
        | arr alternatives =>
          obtain ⟨others, rfl, _⟩ := Json.equivalent_arr_iff.mp hsame
          have hproper := Json.isProper_arr_iff.mp (h.left.isProper hany)
          have hproper' := Json.isProper_arr_iff.mp (h.right.isProper hother)
          have hnull : nullOnly.IsProper := Json.isProper_obj_iff.mpr
            ⟨by simp [Document.keys], by simp⟩
          have hmem : nullOnly ∈ alternatives ↔ nullOnly ∈ others := hsame.mem_iff
            (fun y hy => eq_nullOnly (hproper' y hy))
            fun x hx hsame => eq_nullOnly (hproper x hx) (hsame.symm hnull)
          rw [widenNullable_of_anyOf hbson htype hany, widenNullable_of_anyOf hbson' htype' hother]
          by_cases hnames : nullOnly ∈ alternatives
          · rw [if_pos hnames, if_pos (hmem.mp hnames)]
            exact .pure h
          · rw [if_neg hnames, if_neg (hmem.not.mp hnames)]
            have hadded : ∀ {items : List Json}, (∀ item ∈ items, item.IsProper) →
                (Json.arr (items ++ [nullOnly])).IsProper := fun {items} hitems =>
              Json.isProper_arr_iff.mpr (List.forall_mem_append.mpr ⟨hitems, by simpa using hnull⟩)
            exact .pure (h.put ⟨rfl, hadded hproper⟩ ⟨rfl, hadded hproper'⟩
              (hsame.append_same hnull))
        | _ => simp [hasForm] at hform

end Adjustments

section Bounds

variable {d e : Document} {c : Constraints}

theorem isProper_of_bound? {value : Json} {x : Rat} (h : value.bound? = some x) :
    value.IsProper := by
  obtain ⟨number, rfl⟩ := Json.eq_num_of_bound? h
  exact Number.isFinite_iff.mpr ⟨x, h⟩

theorem isProper_keywords {limit? : Option Constraints.Limit} {bound exclusive : String}
    (hlimit : ∀ limit, limit? = some limit → limit.value.IsProper) :
    ∀ member ∈ (limit?.map (·.keywords bound exclusive)).getD [], member.2.IsProper := by
  cases limit? with
  | none => simp
  | some limit =>
    have hvalue := hlimit limit rfl
    simp only [Option.map_some, Option.getD_some, Constraints.Limit.keywords]
    split
    · simp [hvalue]
    · simp [hvalue]

theorem isProper_boundKeywords (hcheck : c.check = .ok ()) :
    ∀ member ∈ c.boundKeywords, member.2.IsProper := by
  have hpasses := Constraints.check_eq_ok.mp hcheck
  refine List.forall_mem_append.mpr ⟨isProper_keywords ?_, isProper_keywords ?_⟩
  · intro limit hlimit
    obtain ⟨low, hlow⟩ := hpasses.bound?_lower hlimit
    exact isProper_of_bound? hlow
  · intro limit hlimit
    obtain ⟨high, hhigh⟩ := hpasses.bound?_upper hlimit
    exact isProper_of_bound? hhigh

theorem IsTidy.bounded (hd : IsTidy d) (hcheck : c.check = .ok ()) : IsTidy (c.bounded d) := by
  have htyped := hd.typed.bounded c
  refine .of_members htyped fun member hmem => ?_
  have hfound := Document.get?_of_mem htyped.nodup (show (member.1, member.2) ∈ _ from hmem)
  rw [Constraints.get?_bounded, Option.or_eq_some_iff] at hfound
  rcases hfound with hset | ⟨_, hkept⟩
  · exact isProper_boundKeywords hcheck _ (Document.mem_of_get? hset)
  · split at hkept
    · cases hkept
    · exact hd.isProper hkept

/-- Setting bounds in schemas that say the same gives such schemas. -/
theorem SaysSame.bounded (h : SaysSame d e) (hcheck : c.check = .ok ()) :
    SaysSame (c.bounded d) (c.bounded e) := by
  refine .of_get? (h.left.bounded hcheck) (h.right.bounded hcheck) fun keyword => ?_
  rw [Constraints.get?_bounded, Constraints.get?_bounded]
  cases hset : c.boundKeywords.get? keyword with
  | some value =>
    have hvalue := isProper_boundKeywords hcheck _ (Document.mem_of_get? hset)
    exact .some (.refl hvalue)
  | none =>
    simp only [Option.none_or]
    split
    · exact .none
    · exact h.get? keyword

end Bounds

section Unions

open Tagging

variable {d e : Document}

theorem SaysSame.properties (h : SaysSame d e) :
    Equivalent looseKeys false (.obj (propertiesOf d)) (.obj (propertiesOf e)) := by
  rw [← propertiesPart_of_isTyped h.left.typed, ← propertiesPart_of_isTyped h.right.typed]
  have hget := h.get? "properties"
  simp only [propertiesPart, Json.member?]
  generalize d.get? "properties" = x at hget ⊢
  generalize e.get? "properties" = y at hget ⊢
  cases hget with
  | none => exact .refl (Json.isProper_obj_iff.mpr ⟨List.nodup_nil, by simp⟩)
  | some hsame => exact hsame

theorem SaysSame.required (h : SaysSame d e) :
    Equivalent looseKeys true (.arr (requiredOf d)) (.arr (requiredOf e)) := by
  rw [← requiredPart_of_isTyped h.left.typed, ← requiredPart_of_isTyped h.right.typed]
  have hget := h.get? "required"
  simp only [requiredPart, Json.member?]
  generalize d.get? "required" = x at hget ⊢
  generalize e.get? "required" = y at hget ⊢
  cases hget with
  | none => exact .refl (Json.isProper_arr_iff.mpr (by simp))
  | some hsame => exact hsame

theorem IsTidy.properties (hd : IsTidy d) : (Json.obj (propertiesOf d)).IsProper := by
  rw [← propertiesPart_of_isTyped hd.typed]
  simp only [propertiesPart, Json.member?]
  cases hfound : d.get? "properties" with
  | none => exact Json.isProper_obj_iff.mpr ⟨List.nodup_nil, by simp⟩
  | some argument => exact hd.isProper hfound

theorem IsTidy.required (hd : IsTidy d) : (Json.arr (requiredOf d)).IsProper := by
  rw [← requiredPart_of_isTyped hd.typed]
  simp only [requiredPart, Json.member?]
  cases hfound : d.get? "required" with
  | none => exact Json.isProper_arr_iff.mpr (by simp)
  | some argument => exact hd.isProper hfound

theorem isProper_tagSchema (key : String) : (tagSchema key).IsProper :=
  Json.isProper_obj_iff.mpr ⟨by simp [Document.keys], by
    simp [Json.isProper_arr_iff]⟩

theorem isProper_tagProperties (hd : IsTidy d) {tag : String} (key : String)
    (hfree : (propertiesOf d).has tag = false) :
    (Json.obj ((tag, tagSchema key) :: propertiesOf d)).IsProper := by
  obtain ⟨hnodup, hmembers⟩ := Json.isProper_obj_iff.mp hd.properties
  have hfresh : tag ∉ (propertiesOf d).keys := by
    rw [← Document.has_eq_mem, hfree]
    exact Bool.false_ne_true
  refine Json.isProper_obj_iff.mpr ⟨List.nodup_cons.mpr ⟨hfresh, hnodup⟩, ?_⟩
  exact List.forall_mem_cons.mpr ⟨isProper_tagSchema key, hmembers⟩

theorem isTidy_tagged (hd : IsTidy d) {tag : String} (key : String)
    (hfree : (propertiesOf d).has tag = false) : IsTidy (tagged tag key d) := by
  have hproperties := isProper_tagProperties hd key hfree
  have hrequired : (Json.arr (.str tag :: requiredOf d)).IsProper :=
    Json.isProper_arr_iff.mpr (List.forall_mem_cons.mpr ⟨trivial,
      Json.isProper_arr_iff.mp hd.required⟩)
  unfold tagged
  cases hfurther : d.get? "additionalProperties" with
  | none =>
    refine .of_members (.of_members (by simp [Document.keys]) (by simp [hasForm])) ?_
    simp [hproperties, hrequired]
  | some argument =>
    have hargument := hd.isProper hfurther
    refine .of_members (.of_members (by simp [Document.keys]) ?_) ?_
    · cases argument <;> simp [hasForm]
    · simp [hproperties, hrequired, hargument]

/-- Schemas that say the same do so with a tag that neither has as a property. -/
theorem SaysSame.tagged (h : SaysSame d e) {tag : String} (key : String)
    (hfree : (propertiesOf d).has tag = false) :
    SaysSame (tagged tag key d) (tagged tag key e) := by
  have hfree' : (propertiesOf e).has tag = false := h.properties.has_eq tag ▸ hfree
  have hproper := isProper_tagProperties h.left key hfree
  have hproperties : Equivalent looseKeys false (.obj ((tag, tagSchema key) :: propertiesOf d))
      (.obj ((tag, tagSchema key) :: propertiesOf e)) := by
    refine (Json.equivalent_obj_iff_get? hproper.1).mpr fun name => ?_
    rw [Document.get?_cons, Document.get?_cons]
    split
    · exact .some (.refl (isProper_tagSchema key))
    · exact h.properties.get? (Json.isProper_obj_iff.mp h.left.properties).1 name
  have hrequired : Equivalent looseKeys true (.arr (.str tag :: requiredOf d))
      (.arr (.str tag :: requiredOf e)) := .cons rfl h.required
  refine .of_members (isTidy_tagged h.left key hfree) (isTidy_tagged h.right key hfree') ?_
  refine List.rel_append (.cons (.refl trivial) (.cons ⟨rfl, hproperties⟩
    (.cons ⟨rfl, hrequired⟩ .nil))) ?_
  have hget := h.get? "additionalProperties"
  generalize d.get? "additionalProperties" = x at hget ⊢
  generalize e.get? "additionalProperties" = y at hget ⊢
  cases hget with
  | none => exact .nil
  | some hsame => exact .cons ⟨rfl, hsame⟩ .nil

/-- Objects with exactly some properties say the same if the schemas of these do. -/
theorem HeldSame.closedObject {ps qs : Document} (hnodup : ps.keys.Nodup)
    (h : List.Forall₂ (fun p q => p.1 = q.1 ∧ HeldSame p.2 q.2) ps qs) :
    HeldSame (.obj (closedObject ps)) (.obj (closedObject qs)) := by
  have hkeys : ps.keys = qs.keys := keys_eq_of_forall₂ And.left h
  have htidy : ∀ {properties : Document}, properties.keys.Nodup →
      (∀ p ∈ properties, p.2.IsProper) → IsTidy (Tagging.closedObject properties) := by
    intro properties hkeys hmembers
    have hproperties := Json.isProper_obj_iff.mpr ⟨hkeys, hmembers⟩
    have hrequired : (Json.arr (properties.keys.map .str)).IsProper :=
      Json.isProper_arr_iff.mpr (List.forall_mem_map.mpr fun _ _ => trivial)
    refine .of_members (.of_members (by simp [Tagging.closedObject, Document.keys])
      (by simp [Tagging.closedObject, hasForm])) ?_
    simp [Tagging.closedObject, hproperties, hrequired]
  have hps : ∀ p ∈ ps, p.2.IsProper := fun p hp => by
    obtain ⟨_, _, hheld⟩ := exists_of_forall₂ h p hp
    exact hheld.left
  have hqs : ∀ q ∈ qs, q.2.IsProper := fun q hq => by
    obtain ⟨_, _, hheld⟩ := exists_of_forall₂ h.flip q hq
    exact hheld.right
  refine .intro (.of_members (htidy hnodup hps) (htidy (hkeys ▸ hnodup) hqs) ?_)
  have hproperties : Equivalent looseKeys false (.obj ps) (.obj qs) :=
    Json.equivalent_obj_of_forall₂ hnodup (.refl ps) (h.imp fun _ _ hpq => ⟨hpq.1, hpq.2.same⟩)
  have hrequired : (Json.arr (qs.keys.map .str)).IsProper :=
    Json.isProper_arr_iff.mpr (List.forall_mem_map.mpr fun _ _ => trivial)
  rw [Tagging.closedObject, hkeys]
  exact .cons (.refl trivial) (.cons ⟨rfl, hproperties⟩ (.cons (.refl hrequired)
    (.cons (.refl trivial) .nil)))

variable {v w : EncodedVariant}

theorem heldSame_tagSchema (key : String) : HeldSame (tagSchema key) (tagSchema key) := by
  refine .intro (.refl ⟨.of_members (by simp [Document.keys]) (by simp [hasForm]), ?_⟩)
  exact isProper_tagSchema key

theorem heldSame_payload (h : v.Corresponds SaysSame w) : HeldSame v.payload w.payload := by
  obtain ⟨key, schema, mergeable⟩ := v
  obtain ⟨_, schema', _⟩ := w
  obtain ⟨rfl, rfl, hschema⟩ := h
  cases hschema with
  | none =>
    have hnames : (Json.arr [.str "array", .str "null"]).IsProper :=
      Json.isProper_arr_iff.mpr (by simp)
    exact .intro (.refl (.of_members (.of_members (by simp [Document.keys]) (by simp [hasForm]))
      (by simp [hnames])))
  | some hdoc =>
    obtain ⟨d, e, rfl, rfl, hsame⟩ := hdoc
    exact .intro hsame

/-- Variants whose payloads say the same are encoded alike, if the names of tag and content are in
order. -/
theorem survives_encode_same {tagging : Tagging} (hcheck : tagging.check = .ok ())
    (h : v.Corresponds SaysSame w) : Survives HeldSame (tagging.encode v) (tagging.encode w) := by
  have hpayload := heldSame_payload h
  cases tagging with
  | external =>
    rw [encode, encode, h.key]
    exact .pure (.closedObject (by simp [Document.keys]) (.cons ⟨rfl, hpayload⟩ .nil))
  | adjacent tag content =>
    have hne : tag ≠ content := by
      rintro rfl
      simp only [check, if_true] at hcheck
      split at hcheck <;> cases hcheck
    rw [encode, encode, h.key]
    exact .pure (.closedObject (by simpa [Document.keys] using hne)
      (.cons ⟨rfl, heldSame_tagSchema w.key⟩ (.cons ⟨rfl, hpayload⟩ .nil)))
  | untagged => exact .pure hpayload
  | internal tag =>
    obtain ⟨key, schema, mergeable⟩ := v
    obtain ⟨_, schema', _⟩ := w
    obtain ⟨rfl, rfl, hschema⟩ := h
    cases hschema with
    | none =>
      exact .pure (.closedObject (by simp [Document.keys])
        (.cons ⟨rfl, heldSame_tagSchema key⟩ .nil))
    | some hdoc =>
      obtain ⟨d, e, rfl, rfl, hsame⟩ := hdoc
      simp only [encode, mergeTag_of_isTyped hsame.left.typed,
        mergeTag_of_isTyped hsame.right.typed, ← hsame.properties.has_eq tag]
      split
      · cases hfree : (propertiesOf d).has tag with
        | true => exact .error
        | false => exact .pure (.intro (hsame.tagged key hfree))
      · exact .error

/-- A union is encoded variant by variant, once its names and the number of variants are in
order. -/
theorem encodeUnion_eq_ok {tagging : Tagging} {variants : List EncodedVariant} {doc : Document} :
    tagging.encodeUnion variants = .ok doc ↔ tagging.check = .ok () ∧ variants ≠ [] ∧
      ∃ alternatives, List.Forall₂ (fun v x => tagging.encode v = .ok x) variants alternatives ∧
        doc = [("anyOf", .arr alternatives)] := by
  unfold encodeUnion
  cases variants with
  | nil =>
    constructor
    · intro h
      obtain ⟨_, _, h⟩ := bind_eq_ok.mp h
      cases h
    · rintro ⟨_, hne, _⟩
      exact absurd rfl hne
  | cons first rest =>
    constructor
    · intro h
      obtain ⟨_, hcheck, h⟩ := bind_eq_ok.mp h
      obtain ⟨alternatives, halternatives, h⟩ := bind_eq_ok.mp h
      cases h
      exact ⟨hcheck, nofun, alternatives, mapM_eq_ok.mp halternatives, rfl⟩
    · rintro ⟨hcheck, _, alternatives, halternatives, rfl⟩
      refine bind_eq_ok.mpr ⟨(), hcheck, bind_eq_ok.mpr ⟨alternatives, ?_, rfl⟩⟩
      exact mapM_eq_ok.mpr halternatives

/-- Steps that survive one by one have related results. -/
theorem exists_forall₂_of_survives {α β γ δ : Type} {ε : Type} {P : α → β → Prop}
    {Q : γ → δ → Prop} {f : α → Except ε γ} {g : β → Except ε δ} {xs : List α} {ys : List β}
    {results : List γ} (hxy : List.Forall₂ P xs ys)
    (hxs : List.Forall₂ (fun x c => f x = .ok c) xs results)
    (hsurvives : ∀ x y, P x y → Survives Q (f x) (g y)) :
    ∃ others, List.Forall₂ (fun y d => g y = .ok d) ys others ∧ List.Forall₂ Q results others := by
  have hmapM : xs.mapM f = .ok results := mapM_eq_ok.mpr hxs
  obtain ⟨others, hothers, hsame⟩ :=
    Survives.mapM (hxy.imp hsurvives) results hmapM
  exact ⟨others, mapM_eq_ok.mp hothers, hsame⟩

/-- Unions of variants that say the same in some order say the same. -/
theorem survives_encodeUnion_same (tagging : Tagging) {vs arranged ws : List EncodedVariant}
    (hperm : vs.Perm arranged)
    (h : List.Forall₂ (EncodedVariant.Corresponds SaysSame) arranged ws) :
    Survives SaysSame (tagging.encodeUnion vs) (tagging.encodeUnion ws) := by
  intro doc hdoc
  obtain ⟨hcheck, hne, alternatives, hencoded, rfl⟩ := encodeUnion_eq_ok.mp hdoc
  have hempty : ws ≠ [] := by
    rintro rfl
    cases h
    exact hne (List.perm_nil.mp hperm)
  -- the alternatives in the order of the second union
  obtain ⟨moved, hmoved, hperm'⟩ := List.perm_comp_forall₂ hperm.symm hencoded
  obtain ⟨others, hothers, hheld⟩ :=
    exists_forall₂_of_survives h hmoved fun _ _ => survives_encode_same hcheck
  refine ⟨_, encodeUnion_eq_ok.mpr ⟨hcheck, hempty, others, hothers, rfl⟩, ?_⟩
  have htidy : ∀ {xs : List Json}, (∀ x ∈ xs, x.IsProper) → IsTidy [("anyOf", .arr xs)] :=
    fun hxs => .of_members (.of_members (by simp [Document.keys]) (by simp [hasForm]))
      (by simpa using Json.isProper_arr_iff.mpr hxs)
  have hleft : ∀ x ∈ alternatives, x.IsProper := fun x hx =>
    left_of_held hheld x (hperm'.mem_iff.mpr hx)
  have hsame : Equivalent looseKeys true (.arr alternatives) (.arr others) :=
    equivalent_arr_of_held hperm'.symm hheld
  exact .of_members (htidy hleft) (htidy (right_of_held hheld)) (.cons ⟨rfl, hsame⟩ .nil)

end Unions
end ShapeSchema.Schema
