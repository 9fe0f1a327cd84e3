import ShapeSchema.Proofs.Json.Comparison
import ShapeSchema.Proofs.Json.Reordering

/-!
Equality of documents as a relation: it is an equivalence, it does not see the order of keys, and
it holds of more pairs the more keys are named as unordered.
-/

namespace ShapeSchema

namespace Json

variable {unordered more : List String}

/-- What says the same says so too where the order of items matters under fewer keys. -/
theorem Equivalent.mono (hmore : unordered ⊆ more) {loose looser : Bool}
    (hloose : loose → looser) {a b : Json} (h : Equivalent unordered loose a b) :
    Equivalent more looser a b := by
  induction a using value_induction generalizing b loose looser with
  | scalar value hscalar =>
    cases value with
    | arr | obj => cases hscalar
    | _ => exact h
  | arr left ih =>
    obtain ⟨right, rfl, arranged, hperm, hitems⟩ := equivalent_arr_iff.mp h
    refine equivalent_arr_iff.mpr ⟨right, rfl, arranged, ?_, ?_⟩
    · cases loose with
      | true =>
        rw [hloose rfl]
        exact hperm
      | false =>
        have hsame : arranged = right := hperm
        exact hsame ▸ arranged_refl arranged
    · have hboth := (List.forall₂_and_left _ _).mpr ⟨ih, hitems⟩
      exact hboth.imp fun _ _ ⟨hitem, hsame⟩ => hitem id hsame
  | obj left ih =>
    obtain ⟨right, rfl, hkeys, hmembers⟩ := equivalent_obj_iff.mp h
    refine equivalent_obj_iff.mpr ⟨right, rfl, hkeys, fun member hmem => ?_⟩
    obtain ⟨other, hother, hsame⟩ := hmembers member hmem
    refine ⟨other, hother, ih member hmem (fun hkey => ?_) hsame⟩
    exact List.contains_iff_mem.mpr (hmore (List.contains_iff_mem.mp hkey))

theorem forall₂_replace {α : Type} {R : α → α → Prop} {before after : List α} {a b : α}
    (hbefore : ∀ x ∈ before, R x x) (hab : R a b) (hafter : ∀ x ∈ after, R x x) :
    List.Forall₂ R (before ++ a :: after) (before ++ b :: after) :=
  List.rel_append (List.forall₂_same.mpr hbefore) (.cons hab (List.forall₂_same.mpr hafter))

/-- Naming keys in another order keeps a value proper and what it says. -/
theorem Rekeyed.equivalent {a b : Json} (h : Rekeyed a b) (unordered : List String)
    (ha : a.IsProper) :
    b.IsProper ∧ ∀ loose, Equivalent unordered loose a b := by
  induction h with
  | refl value => exact ⟨ha, fun _ => .refl ha⟩
  | @keys members reordered hperm =>
    obtain ⟨hnodup, hmembers⟩ := isProper_obj_iff.mp ha
    have hreordered : ∀ member ∈ reordered, member.2.IsProper := fun member hmem =>
      hmembers member (hperm.mem_iff.mpr hmem)
    refine ⟨isProper_obj_iff.mpr ⟨(hperm.map Prod.fst).nodup_iff.mp hnodup, hreordered⟩, ?_⟩
    refine fun loose => equivalent_obj_of_forall₂ hnodup hperm ?_
    exact List.forall₂_same.mpr fun member hmem => ⟨rfl, .refl (hreordered member hmem)⟩
  | member before key after _ ih =>
    obtain ⟨hnodup, hmembers⟩ := isProper_obj_iff.mp ha
    obtain ⟨hbefore, hvalue, hafter⟩ :
        (∀ member ∈ before, member.2.IsProper) ∧ _ ∧ ∀ member ∈ after, member.2.IsProper := by
      rwa [List.forall_mem_append, List.forall_mem_cons] at hmembers
    obtain ⟨hother, hsame⟩ := ih hvalue
    refine ⟨isProper_obj_iff.mpr ⟨?_, ?_⟩, fun loose => ?_⟩
    · simpa [Document.keys] using hnodup
    · rw [List.forall_mem_append, List.forall_mem_cons]
      exact ⟨hbefore, hother, hafter⟩
    · refine equivalent_obj_of_forall₂ hnodup (.refl _) (forall₂_replace ?_ ⟨rfl, hsame _⟩ ?_)
      · exact fun member hmem => ⟨rfl, .refl (hbefore member hmem)⟩
      · exact fun member hmem => ⟨rfl, .refl (hafter member hmem)⟩
  | item before after _ ih =>
    obtain ⟨hbefore, hitem, hafter⟩ :
        (∀ item ∈ before, item.IsProper) ∧ _ ∧ ∀ item ∈ after, item.IsProper := by
      have hitems := isProper_arr_iff.mp ha
      rwa [List.forall_mem_append, List.forall_mem_cons] at hitems
    obtain ⟨hother, hsame⟩ := ih hitem
    refine ⟨isProper_arr_iff.mpr ?_, fun loose => ?_⟩
    · rw [List.forall_mem_append, List.forall_mem_cons]
      exact ⟨hbefore, hother, hafter⟩
    · refine equivalent_arr_iff.mpr ⟨_, rfl, _, arranged_refl _, ?_⟩
      refine forall₂_replace (fun item hmem => ?_) (hsame false) (fun item hmem => ?_)
      · exact .refl (hbefore item hmem)
      · exact .refl (hafter item hmem)
  | trans _ _ ihfirst ihsecond =>
    obtain ⟨hsecond, hleft⟩ := ihfirst ha
    obtain ⟨hthird, hright⟩ := ihsecond hsecond
    exact ⟨hthird, fun loose => (hleft loose).trans (hright loose)⟩

end Json

open Json (Rekeyed)

/-- Equality of documents decides whether they say the same. -/
theorem documentsEqual_eq_true {a b : Json} (hb : b.IsProper) (unordered : List String) :
    documentsEqual a b unordered ↔ Json.Equivalent unordered false a b :=
  Difference.Decides.same_iff (Difference.decides unordered a) hb

/-- Equality of documents is reflexive, symmetric and transitive, it stays as it is when keys are
named in another order at any depth of either document, and documents that are equal stay so when
more keys are named as unordered. -/
theorem documentsEqual_equivalence {unordered more : List String} (hmore : unordered ⊆ more) :
    Equivalence (fun a b : {value : Json // value.IsProper} =>
        documentsEqual a.1 b.1 unordered = true) ∧
      (∀ a b a' b' : Json, a.IsProper → b.IsProper → Rekeyed a a' → Rekeyed b b' →
        documentsEqual a' b' unordered = documentsEqual a b unordered) ∧
      ∀ a b : Json, b.IsProper → documentsEqual a b unordered → documentsEqual a b more := by
  refine ⟨⟨fun a => ?_, fun {a b} h => ?_, fun {a b c} hab hbc => ?_⟩,
    fun a b a' b' ha hb hleft hright => ?_, fun a b hb h => ?_⟩
  · exact (documentsEqual_eq_true a.2 unordered).mpr (.refl a.2)
  · have hsame := (documentsEqual_eq_true b.2 unordered).mp h
    exact (documentsEqual_eq_true a.2 unordered).mpr (hsame.symm b.2)
  · have hfirst := (documentsEqual_eq_true b.2 unordered).mp hab
    have hsecond := (documentsEqual_eq_true c.2 unordered).mp hbc
    exact (documentsEqual_eq_true c.2 unordered).mpr (hfirst.trans hsecond)
  · obtain ⟨ha', hsameleft⟩ := hleft.equivalent unordered ha
    obtain ⟨hb', hsameright⟩ := hright.equivalent unordered hb
    rw [Bool.eq_iff_iff, documentsEqual_eq_true hb', documentsEqual_eq_true hb]
    constructor
    · exact fun h => ((hsameleft false).trans h).trans ((hsameright false).symm hb')
    · exact fun h => (((hsameleft false).symm ha').trans h).trans (hsameright false)
  · have hsame := (documentsEqual_eq_true hb unordered).mp h
    exact (documentsEqual_eq_true hb more).mpr (hsame.mono hmore id)

/-- Keys in another order at two depths and names of fields in another order make no difference
where `required` is unordered, nor with `anyOf` unordered as well. -/
theorem documentsEqual_of_reordered_properties :
    let plain : Json := .obj [("required", .arr [.str "x", .str "y"]),
      ("properties", .obj [("x", .num (.int 1)), ("y", .num (.double (.zero true)))])]
    let rekeyed : Json := .obj [("properties",
      .obj [("y", .num (.double (.zero true))), ("x", .num (.int 1))]),
        ("required", .arr [.str "x", .str "y"])]
    let other : Json := .obj [("required", .arr [.str "y", .str "x"]),
      ("properties", .obj [("x", .num (.int 1)), ("y", .num (.int 0))])]
    documentsEqual rekeyed other ["required"] = documentsEqual plain other ["required"] ∧
      documentsEqual plain other ["required", "anyOf"] := by
  intro plain rekeyed other
  have hplain : plain.IsProper := by
    simp [plain, Json.IsProper, Json.MembersProper, Json.AreProper, Number.isFinite,
      Double.isFinite, Double.zero]
  have hother : other.IsProper := by
    simp [other, Json.IsProper, Json.MembersProper, Json.AreProper, Number.isFinite]
  have hrekeyed : Rekeyed plain rekeyed :=
    (Rekeyed.keys (.swap _ _ [])).trans (.member [] _ _ (.keys (.swap _ _ [])))
  obtain ⟨-, hkeys, hmore⟩ :=
    documentsEqual_equivalence (List.subset_append_left ["required"] ["anyOf"])
  refine ⟨hkeys plain other rekeyed other hplain hother hrekeyed (.refl other), ?_⟩
  exact hmore plain other hother (by decide +kernel)

end ShapeSchema
