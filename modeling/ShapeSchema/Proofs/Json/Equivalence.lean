import Mathlib.Data.List.Perm.Basic
import ShapeSchema.Json.Equivalence
import ShapeSchema.Proofs.Json.Members

/-!
Saying the same is symmetric and transitive. This holds of every pair of documents whose objects
name each key once, also where the order of items does not matter: arrangements of the same items
can be carried from one side to the other.
-/

namespace ShapeSchema

theorem Number.same_iff {a b : Number} :
    a.same b ↔ ∃ place, a.place? = some place ∧ b.place? = some place := by
  unfold same
  cases a.place? with
  | none => simp only [reduceCtorEq, false_and, exists_false, Bool.false_eq_true]
  | some p =>
    cases b.place? with
    | none => simp only [reduceCtorEq, and_false, exists_false, Bool.false_eq_true]
    | some q =>
      simp only [beq_iff_eq, Option.some.injEq, exists_eq_left']
      exact eq_comm

theorem Number.same_symm {a b : Number} (h : a.same b) : b.same a := by
  obtain ⟨place, ha, hb⟩ := same_iff.mp h
  exact same_iff.mpr ⟨place, hb, ha⟩

theorem Number.same_trans {a b c : Number} (hab : a.same b) (hbc : b.same c) : a.same c := by
  obtain ⟨place, ha, hb⟩ := same_iff.mp hab
  obtain ⟨other, hb', hc⟩ := same_iff.mp hbc
  cases hb.symm.trans hb'
  exact same_iff.mpr ⟨place, ha, hc⟩

namespace Json

/-- What holds of every value that is no container, and of a container if it holds of the values in
it, holds of every value. -/
theorem value_induction {motive : Json → Prop}
    (scalar : ∀ value, value.isScalar → motive value)
    (arr : ∀ items, (∀ item ∈ items, motive item) → motive (.arr items))
    (obj : ∀ members, (∀ member ∈ members, motive member.2) → motive (.obj members)) :
    ∀ value, motive value
  | .null => scalar _ rfl
  | .bool _ => scalar _ rfl
  | .num _ => scalar _ rfl
  | .str _ => scalar _ rfl
  | .arr items => arr items fun item _ => value_induction scalar arr obj item
  | .obj members => obj members fun member _ => value_induction scalar arr obj member.2
termination_by value => sizeOf value
decreasing_by
  · have hlt := List.sizeOf_lt_of_mem ‹item ∈ items›
    rw [Json.arr.sizeOf_spec]
    omega
  · have hlt := List.sizeOf_lt_of_mem ‹member ∈ members›
    obtain ⟨key, value⟩ := member
    rw [Json.obj.sizeOf_spec]
    rw [Prod.mk.sizeOf_spec] at hlt
    simp only
    omega

section Proper

attribute [local simp] AreProper MembersProper

theorem areProper_iff {items : List Json} : AreProper items ↔ ∀ item ∈ items, item.IsProper := by
  induction items with
  | nil => simp
  | cons item rest ih => simp [ih]

theorem membersProper_iff {members : List (String × Json)} :
    MembersProper members ↔ ∀ member ∈ members, member.2.IsProper := by
  induction members with
  | nil => simp
  | cons member rest ih => rw [MembersProper, ih, List.forall_mem_cons]

end Proper

section Equivalent

variable {unordered : List String} {loose : Bool}

attribute [local simp] ItemsEquivalent MembersEquivalent Equivalent

theorem itemsEquivalent_iff {left others : List Json} :
    ItemsEquivalent unordered left others ↔
      List.Forall₂ (Equivalent unordered false) left others := by
  induction left generalizing others with
  | nil => simp
  | cons item rest ih =>
    rw [ItemsEquivalent, List.forall₂_cons_left_iff]
    constructor
    · rintro ⟨other, more, rfl, hitem, hrest⟩
      exact ⟨other, more, hitem, ih.mp hrest, rfl⟩
    · rintro ⟨other, more, hitem, hrest, rfl⟩
      exact ⟨other, more, rfl, hitem, ih.mpr hrest⟩

theorem membersEquivalent_iff {left : List (String × Json)} {right : Document} :
    MembersEquivalent unordered left right ↔ ∀ member ∈ left, ∃ other,
      right.get? member.1 = some other ∧
        Equivalent unordered (unordered.contains member.1) member.2 other := by
  induction left with
  | nil => simp
  | cons member rest ih => rw [MembersEquivalent, ih, List.forall_mem_cons]

/-- Sequences say the same if an arrangement of the second one, which is itself where order matters,
says the same position by position. -/
theorem equivalent_arr_iff {left : List Json} {other : Json} :
    Equivalent unordered loose (.arr left) other ↔ ∃ right, other = .arr right ∧
      ∃ arranged : List Json, (if loose then arranged.Perm right else arranged = right) ∧
        List.Forall₂ (Equivalent unordered false) left arranged := by
  simp only [Equivalent, itemsEquivalent_iff]

theorem equivalent_obj_iff {left : List (String × Json)} {other : Json} :
    Equivalent unordered loose (.obj left) other ↔ ∃ right, other = .obj right ∧
      (∀ key, Document.has key left = Document.has key right) ∧ ∀ member ∈ left, ∃ value,
        Document.get? member.1 right = some value ∧
          Equivalent unordered (unordered.contains member.1) member.2 value := by
  simp only [Equivalent, membersEquivalent_iff]

/-- Arranging a list carries over to a list that corresponds to it. -/
theorem arranged_forall₂ {R : Json → Json → Prop} {xs ys zs : List Json}
    (hperm : if loose then xs.Perm ys else xs = ys) (h : List.Forall₂ R ys zs) :
    ∃ ws : List Json, List.Forall₂ R xs ws ∧ if loose then ws.Perm zs else ws = zs := by
  cases loose with
  | true =>
    obtain ⟨ws, hws, hperm⟩ := List.perm_comp_forall₂ hperm h
    exact ⟨ws, hws, hperm⟩
  | false =>
    have hsame : xs = ys := hperm
    exact ⟨zs, hsame ▸ h, rfl⟩

theorem mem_of_arranged {xs ys : List Json} (hperm : if loose then xs.Perm ys else xs = ys)
    {item : Json} (hmem : item ∈ xs) : item ∈ ys := by
  cases loose with
  | true =>
    have hperm : xs.Perm ys := hperm
    exact hperm.mem_iff.mp hmem
  | false =>
    have hsame : xs = ys := hperm
    exact hsame ▸ hmem

theorem arranged_symm {xs ys : List Json} (hperm : if loose then xs.Perm ys else xs = ys) :
    if loose then ys.Perm xs else ys = xs := by
  cases loose with
  | true => exact List.Perm.symm hperm
  | false => exact Eq.symm hperm

theorem arranged_trans {xs ys zs : List Json} (hperm : if loose then xs.Perm ys else xs = ys)
    (hmore : if loose then ys.Perm zs else ys = zs) :
    if loose then xs.Perm zs else xs = zs := by
  cases loose with
  | true => exact List.Perm.trans hperm hmore
  | false => exact Eq.trans hperm hmore

theorem forall₂_trans {R S T : Json → Json → Prop} {xs ys zs : List Json}
    (hleft : List.Forall₂ R xs ys) (hright : List.Forall₂ S ys zs)
    (htrans : ∀ x ∈ xs, ∀ y z, R x y → S y z → T x z) : List.Forall₂ T xs zs := by
  induction hleft generalizing zs with
  | nil =>
    cases hright
    exact .nil
  | cons hhead _ ih =>
    obtain ⟨hfirst, hrest⟩ := List.forall_mem_cons.mp htrans
    cases hright with
    | cons hnext hmore => exact .cons (hfirst _ _ hhead hnext) (ih hmore hrest)

theorem Equivalent.symm {a b : Json} (hb : b.IsProper) (h : Equivalent unordered loose a b) :
    Equivalent unordered loose b a := by
  induction a using value_induction generalizing b loose with
  | scalar value hscalar =>
    cases value with
    | num x =>
      obtain ⟨y, rfl, hsame⟩ := h
      exact ⟨x, rfl, Number.same_symm hsame⟩
    | arr | obj => cases hscalar
    | _ =>
      obtain rfl := h
      rfl
  | arr left ih =>
    obtain ⟨right, rfl, arranged, hperm, hitems⟩ := equivalent_arr_iff.mp h
    have hproper : ∀ item ∈ arranged, item.IsProper := fun item hmem =>
      areProper_iff.mp hb item (mem_of_arranged hperm hmem)
    have hback : List.Forall₂ (Equivalent unordered false) arranged left := by
      have hboth := (List.forall₂_and_left _ _).mpr ⟨ih, hitems⟩
      have hflip : List.Forall₂ (fun y x => y.IsProper ∧ _) arranged left :=
        (List.forall₂_and_left _ _).mpr ⟨hproper, hboth.flip⟩
      exact hflip.imp fun y x ⟨hy, hx, hxy⟩ => hx hy hxy
    obtain ⟨others, hothers, hperm'⟩ := arranged_forall₂ (arranged_symm hperm) hback
    exact equivalent_arr_iff.mpr ⟨left, rfl, others, hperm', hothers⟩
  | obj left ih =>
    obtain ⟨right, rfl, hkeys, hmembers⟩ := equivalent_obj_iff.mp h
    obtain ⟨hnodup, hproper⟩ := hb
    refine equivalent_obj_iff.mpr ⟨left, rfl, fun key => (hkeys key).symm, ?_⟩
    rintro ⟨key, value⟩ hmem
    have hfound := Document.get?_of_mem hnodup hmem
    have hhas : Document.has key left := by
      rw [hkeys key]
      exact Document.has_iff.mpr ⟨value, hfound⟩
    obtain ⟨given, hgiven⟩ := Document.has_iff.mp hhas
    have hmem' := Document.mem_of_get? hgiven
    obtain ⟨other, hother, hsame⟩ := hmembers _ hmem'
    -- the right side names the key once, so the partner of the left member is this member
    cases hfound.symm.trans hother
    exact ⟨given, hgiven, ih _ hmem' (membersProper_iff.mp hproper _ hmem) hsame⟩

theorem Equivalent.trans {a b c : Json} (hab : Equivalent unordered loose a b)
    (hbc : Equivalent unordered loose b c) : Equivalent unordered loose a c := by
  induction a using value_induction generalizing b c loose with
  | scalar value hscalar =>
    cases value with
    | num x =>
      obtain ⟨y, rfl, hxy⟩ := hab
      obtain ⟨z, rfl, hyz⟩ := hbc
      exact ⟨z, rfl, Number.same_trans hxy hyz⟩
    | arr | obj => cases hscalar
    | _ =>
      obtain rfl := hab
      exact hbc
  | arr left ih =>
    obtain ⟨middle, rfl, arranged, hperm, hleft⟩ := equivalent_arr_iff.mp hab
    obtain ⟨right, rfl, others, hperm', hmiddle⟩ := equivalent_arr_iff.mp hbc
    obtain ⟨targets, htargets, hperm''⟩ := arranged_forall₂ hperm hmiddle
    refine equivalent_arr_iff.mpr ⟨right, rfl, targets, arranged_trans hperm'' hperm', ?_⟩
    exact forall₂_trans hleft htargets fun item hmem _ _ => ih item hmem
  | obj left ih =>
    obtain ⟨middle, rfl, hkeys, hleft⟩ := equivalent_obj_iff.mp hab
    obtain ⟨right, rfl, hkeys', hmiddle⟩ := equivalent_obj_iff.mp hbc
    refine equivalent_obj_iff.mpr ⟨right, rfl, fun key => (hkeys key).trans (hkeys' key), ?_⟩
    intro member hmem
    obtain ⟨value, hvalue, hsame⟩ := hleft member hmem
    obtain ⟨target, htarget, hsame'⟩ := hmiddle _ (Document.mem_of_get? hvalue)
    exact ⟨target, htarget, ih member hmem hsame hsame'⟩

end Equivalent

end Json
end ShapeSchema
