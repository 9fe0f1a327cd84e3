import ShapeSchema.Proofs.Json.Equivalence

/-!
Reordered documents. An object says the same as one with the same members in another order, and so
does a sequence where the order of its items does not matter.
-/

namespace ShapeSchema

theorem Number.same_self {a : Number} (ha : a.isFinite) : a.same a := by
  refine same_iff.mpr ?_
  cases a with
  | int value => exact ⟨_, rfl, rfl⟩
  | double value =>
    cases value with
    | finite negative significand exponent canonical => exact ⟨_, rfl, rfl⟩
    | infinite | nan => cases ha

namespace Json

variable {unordered : List String} {loose : Bool}

@[simp]
theorem isProper_str {text : String} : (str text).IsProper := trivial

@[simp]
theorem isProper_bool {value : Bool} : (bool value).IsProper := trivial

@[simp]
theorem isProper_int {value : Int} : (num (.int value)).IsProper := rfl

theorem isProper_of_get? {doc : Document} (hdoc : (obj doc).IsProper) {key : String} {value : Json}
    (hfound : doc.get? key = some value) : value.IsProper :=
  membersProper_iff.mp hdoc.2 _ (Document.mem_of_get? hfound)

theorem isProper_obj_iff {members : Document} :
    (obj members).IsProper ↔ members.keys.Nodup ∧ ∀ member ∈ members, member.2.IsProper :=
  and_congr_right fun _ => membersProper_iff

theorem isProper_arr_iff {items : List Json} :
    (arr items).IsProper ↔ ∀ item ∈ items, item.IsProper :=
  areProper_iff

theorem arranged_refl (xs : List Json) : if loose then xs.Perm xs else xs = xs := by
  cases loose with
  | true => exact List.Perm.refl xs
  | false => rfl

/-- Objects say the same if a reordering of the first one has the keys of the second one, with
values that say the same. -/
theorem equivalent_obj_of_forall₂ {left arranged right : Document} (hnodup : left.keys.Nodup)
    (hperm : left.Perm arranged) (hmembers : List.Forall₂ (fun x y => x.1 = y.1 ∧
      Equivalent unordered (unordered.contains x.1) x.2 y.2) arranged right) :
    Equivalent unordered loose (obj left) (obj right) := by
  have hkeys : arranged.keys = right.keys := by
    clear hperm
    induction hmembers with
    | nil => rfl
    | cons hhead _ ih => exact congrArg₂ List.cons hhead.1 ih
  have hright : right.keys.Nodup := hkeys ▸ (hperm.map Prod.fst).nodup_iff.mp hnodup
  refine equivalent_obj_iff.mpr ⟨right, rfl, fun key => ?_, fun member hmem => ?_⟩
  · rw [Bool.eq_iff_iff, Document.has_eq_mem, Document.has_eq_mem, ← hkeys]
    exact (hperm.map Prod.fst).mem_iff
  · obtain ⟨position, hlt, rfl⟩ := List.mem_iff_getElem.mp (hperm.mem_iff.mp hmem)
    have hlt' : position < right.length := hmembers.length_eq ▸ hlt
    obtain ⟨hkey, hsame⟩ := hmembers.get hlt hlt'
    refine ⟨right[position].2, ?_, hsame⟩
    have hfound := Document.get?_of_mem hright (List.getElem_mem hlt')
    exact hkey ▸ hfound

theorem Equivalent.refl {a : Json} (ha : a.IsProper) : Equivalent unordered loose a a := by
  induction a using value_induction generalizing loose with
  | scalar value hscalar =>
    cases value with
    | num x => exact ⟨x, rfl, Number.same_self ha⟩
    | arr | obj => cases hscalar
    | _ => rfl
  | arr items ih =>
    have hitems := isProper_arr_iff.mp ha
    refine equivalent_arr_iff.mpr ⟨items, rfl, items, arranged_refl items, ?_⟩
    exact List.forall₂_same.mpr fun item hmem => ih item hmem (hitems item hmem)
  | obj members ih =>
    obtain ⟨hnodup, hmembers⟩ := isProper_obj_iff.mp ha
    refine equivalent_obj_of_forall₂ hnodup (.refl members) ?_
    exact List.forall₂_same.mpr fun member hmem => ⟨rfl, ih member hmem (hmembers member hmem)⟩

/-- Objects that name each key once say the same exactly if they do key by key. -/
theorem equivalent_obj_iff_get? {left right : Document} (hnodup : left.keys.Nodup) :
    Equivalent unordered loose (obj left) (obj right) ↔ ∀ key,
      Option.Rel (Equivalent unordered (unordered.contains key)) (left.get? key)
        (right.get? key) := by
  rw [equivalent_obj_iff]
  constructor
  · rintro ⟨_, ⟨⟩, hkeys, hmembers⟩ key
    cases hfound : left.get? key with
    | none =>
      have hnone : right.get? key = none := by
        rw [← Option.not_isSome_iff_eq_none, Option.isSome_iff_exists, ← Document.has_iff,
          ← hkeys key, Document.has_iff, hfound]
        simp
      rw [hnone]
      exact .none
    | some value =>
      obtain ⟨other, hother, hsame⟩ := hmembers _ (Document.mem_of_get? hfound)
      rw [hother]
      exact .some hsame
  · intro h
    refine ⟨right, rfl, fun key => ?_, fun member hmem => ?_⟩
    · rw [Bool.eq_iff_iff, Document.has_iff, Document.has_iff]
      have hkey := h key
      generalize Document.get? key left = first at hkey ⊢
      generalize Document.get? key right = second at hkey ⊢
      cases hkey with
      | none => simp
      | some => simp
    · have hkey := h member.1
      rw [Document.get?_of_mem hnodup hmem] at hkey
      generalize right.get? member.1 = found at hkey
      cases hkey with
      | some hsame => exact ⟨_, rfl, hsame⟩

theorem Equivalent.get? {left right : Document} (hnodup : left.keys.Nodup)
    (h : Equivalent unordered loose (obj left) (obj right)) (key : String) :
    Option.Rel (Equivalent unordered (unordered.contains key)) (left.get? key)
      (right.get? key) :=
  (equivalent_obj_iff_get? hnodup).mp h key

theorem Equivalent.has_eq {left right : Document}
    (h : Equivalent unordered loose (obj left) (obj right)) (key : String) :
    left.has key = right.has key := by
  obtain ⟨_, ⟨⟩, hkeys, _⟩ := equivalent_obj_iff.mp h
  exact hkeys key

theorem Equivalent.cons {x y : Json} {xs ys : List Json} (hhead : Equivalent unordered false x y)
    (h : Equivalent unordered loose (arr xs) (arr ys)) :
    Equivalent unordered loose (arr (x :: xs)) (arr (y :: ys)) := by
  obtain ⟨_, ⟨⟩, arranged, hperm, hitems⟩ := equivalent_arr_iff.mp h
  refine equivalent_arr_iff.mpr ⟨_, rfl, y :: arranged, ?_, .cons hhead hitems⟩
  cases loose with
  | true => exact List.Perm.cons y hperm
  | false => exact congrArg (y :: ·) hperm

theorem Equivalent.append_same {last : Json} {xs ys : List Json} (hlast : last.IsProper)
    (h : Equivalent unordered loose (arr xs) (arr ys)) :
    Equivalent unordered loose (arr (xs ++ [last])) (arr (ys ++ [last])) := by
  obtain ⟨_, ⟨⟩, arranged, hperm, hitems⟩ := equivalent_arr_iff.mp h
  refine equivalent_arr_iff.mpr ⟨_, rfl, arranged ++ [last], ?_, ?_⟩
  · cases loose with
    | true => exact List.Perm.append_right [last] hperm
    | false => exact congrArg (· ++ [last]) hperm
  · exact List.rel_append hitems (.cons (.refl hlast) .nil)

/-- An item that says the same as no other one is in both sequences or in neither. -/
theorem Equivalent.mem_iff {item : Json} {xs ys : List Json}
    (hleft : ∀ y ∈ ys, Equivalent unordered false item y → y = item)
    (hright : ∀ x ∈ xs, Equivalent unordered false x item → x = item)
    (h : Equivalent unordered loose (arr xs) (arr ys)) : item ∈ xs ↔ item ∈ ys := by
  obtain ⟨_, ⟨⟩, arranged, hperm, hitems⟩ := equivalent_arr_iff.mp h
  constructor
  · intro hmem
    obtain ⟨position, hlt, rfl⟩ := List.mem_iff_getElem.mp hmem
    have hlt' : position < arranged.length := hitems.length_eq ▸ hlt
    have hmem' := mem_of_arranged hperm (List.getElem_mem hlt')
    have heq := hleft _ hmem' (hitems.get hlt hlt')
    exact heq ▸ hmem'
  · intro hmem
    have hfirst := mem_of_arranged (arranged_symm hperm) hmem
    obtain ⟨position, hlt, rfl⟩ := List.mem_iff_getElem.mp hfirst
    have hlt' : position < xs.length := hitems.length_eq ▸ hlt
    have hmem' := List.getElem_mem hlt'
    have heq := hright _ hmem' (hitems.get hlt' hlt)
    exact heq ▸ hmem'

theorem equivalent_str_iff {text : String} {other : Json} :
    Equivalent unordered loose (str text) other ↔ other = str text := by
  rfl

theorem eq_of_equivalent_str {text : String} {other : Json}
    (h : Equivalent unordered loose other (str text)) : other = str text :=
  equivalent_str_iff.mp (h.symm trivial)

/-- An object with one text says the same as no other object that names each key once. -/
theorem eq_of_equivalent_single {key text : String} {other : Json} (hother : other.IsProper)
    (h : Equivalent unordered loose (obj [(key, str text)]) other) :
    other = obj [(key, str text)] := by
  obtain ⟨members, rfl, hkeys, hmembers⟩ := equivalent_obj_iff.mp h
  obtain ⟨hnodup, _⟩ := isProper_obj_iff.mp hother
  obtain ⟨value, hfound, hvalue⟩ := hmembers (key, str text) List.mem_cons_self
  cases equivalent_str_iff.mp hvalue
  have honly : ∀ member ∈ members, member.1 = key := by
    intro member hmem
    have hhas : Document.has member.1 members := Document.has_eq_mem.mpr (List.mem_map_of_mem hmem)
    rw [← hkeys] at hhas
    have hkey : key = member.1 := by simpa [Document.has] using hhas
    exact hkey.symm
  rcases members with _ | ⟨⟨k, given⟩, rest⟩
  · cases hfound
  obtain rfl : k = key := honly _ List.mem_cons_self
  cases rest with
  | nil =>
    rw [Document.get?_cons, if_pos rfl] at hfound
    cases hfound
    rfl
  | cons further rest =>
    have hsame := honly further (List.mem_cons_of_mem _ List.mem_cons_self)
    simp [Document.keys, hsame] at hnodup

end Json
end ShapeSchema
