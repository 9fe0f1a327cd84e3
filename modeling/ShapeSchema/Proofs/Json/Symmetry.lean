import ShapeSchema.Proofs.Json.Limit
import ShapeSchema.Proofs.Json.Reordering

/-!
The comparison of documents favours neither side. It walks the members of its left document and
matches unordered items from the left, but with the sides exchanged it lists the same differences
with their sides exchanged: the two runs meet the same keys in two orders, and whether items match
does not depend on the side that they are taken from.
-/

namespace ShapeSchema

def Mismatch.swap : Mismatch → Mismatch
  | onlyLeft => onlyRight
  | onlyRight => onlyLeft
  | lengths left right => lengths right left
  | values left right => values right left
  | unordered left right => unordered right left

def Difference.swap (d : Difference) : Difference :=
  { d with mismatch := d.mismatch.swap }

theorem Json.IsProper.hasDistinctKeys {a : Json} (ha : a.IsProper) : a.HasDistinctKeys := by
  induction a using Json.value_induction with
  | scalar value hscalar => exact .scalar hscalar
  | arr items ih =>
    have hitems := Json.isProper_arr_iff.mp ha
    exact .arr fun item hmem => ih item hmem (hitems item hmem)
  | obj members ih =>
    obtain ⟨hnodup, hmembers⟩ := Json.isProper_obj_iff.mp ha
    exact .obj hnodup fun member hmem => ih member hmem (hmembers member hmem)

namespace Difference

variable {unordered : List String} {loose : Bool} {place : Location} {found : List Difference}

/-- Without a limit the differences of two values do not depend on those found before. -/
theorem compare_unlimited {a : Json} (ha : a.IsProper) (b : Json) (loose : Bool)
    (place : Location) (found : List Difference) :
    compare unordered none loose a b place found =
      found ++ compare unordered none loose a b place [] := by
  obtain ⟨all, hall⟩ := enumerates unordered 0 ha.hasDistinctKeys b loose place (fun _ => False)
    nofun nofun
  have hsame : ∀ found, compare unordered none loose a b place found = found ++ all :=
    hall.unlimited
  rw [hsame found, hsame [], List.nil_append]

/-- Whether differences are others with their sides exchanged, in any order. -/
def Mirrors (listed others : List Difference) : Prop :=
  listed.Perm (others.map swap)

theorem Mirrors.append {listed others more further : List Difference}
    (hfirst : Mirrors listed others) (hsecond : Mirrors more further) :
    Mirrors (listed ++ more) (others ++ further) := by
  rw [Mirrors, List.map_append]
  exact List.Perm.append hfirst hsecond

theorem mirrors_single (place : Location) (mismatch : Mismatch) :
    Mirrors [⟨place, mismatch.swap⟩] [⟨place, mismatch⟩] :=
  .refl _

/-- Where a comparison finds one difference at most, whether it finds one does not depend on the
side that a value is on. -/
theorem mirrors_of_single {a b : Json} (ha : a.IsProper) (hb : b.IsProper) (mismatch : Mismatch)
    (hforth : compare unordered none loose a b place [] = [] ∨
      compare unordered none loose a b place [] = [⟨place, mismatch⟩])
    (hback : compare unordered none loose b a place [] = [] ∨
      compare unordered none loose b a place [] = [⟨place, mismatch.swap⟩]) :
    Mirrors (compare unordered none loose b a place [])
      (compare unordered none loose a b place []) := by
  have hforth_iff : compare unordered none loose a b place [] = [] ↔
      Json.Equivalent unordered loose a b :=
    (decides unordered a b hb none loose place []).eq_nil_iff rfl
  have hback_iff : compare unordered none loose b a place [] = [] ↔
      Json.Equivalent unordered loose b a :=
    (decides unordered b a ha none loose place []).eq_nil_iff rfl
  by_cases hsame : Json.Equivalent unordered loose a b
  · rw [hforth_iff.mpr hsame, hback_iff.mpr (hsame.symm hb)]
    exact .refl _
  · have hother : ¬ Json.Equivalent unordered loose b a := fun h => hsame (h.symm ha)
    rw [hforth.resolve_left (mt hforth_iff.mp hsame), hback.resolve_left (mt hback_iff.mp hother)]
    exact .refl _

theorem mirrors_scalars {a b : Json} (ha : a.IsProper) (hb : b.IsProper)
    (hobj : ∀ left right, a = .obj left → b ≠ .obj right)
    (harr : ∀ left right, a = .arr left → b ≠ .arr right) :
    Mirrors (compare unordered none loose b a place [])
      (compare unordered none loose a b place []) := by
  apply mirrors_of_single ha hb (.values a b)
  · rw [compare_scalars hobj harr]
    split
    · exact .inl rfl
    · exact .inr rfl
  · rw [compare_scalars (fun left right hb ha => hobj right left ha hb)
      (fun left right hb ha => harr right left ha hb)]
    split
    · exact .inl rfl
    · exact .inr rfl

/-- Whether the comparison of a value with any other one is the mirror image of the comparison the
other way round. -/
def IsMirrored (unordered : List String) (a : Json) : Prop :=
  ∀ (b : Json), b.IsProper → ∀ (loose : Bool) (place : Location),
    Mirrors (compare unordered none loose b a place [])
      (compare unordered none loose a b place [])

theorem compareItems_unlimited {left : List Json} (hleft : ∀ a ∈ left, a.IsProper)
    (right : List Json) (place : Location) (position : Nat) (found : List Difference) :
    compareItems unordered none left right place position found =
      found ++ compareItems unordered none left right place position [] := by
  induction left generalizing right position found with
  | nil => simp [compareItems]
  | cons a left ih =>
    obtain ⟨ha, hleft⟩ := List.forall_mem_cons.mp hleft
    cases right with
    | nil => simp [compareItems]
    | cons b right =>
      rw [compareItems, compareItems, ih hleft, compare_unlimited ha, List.append_assoc,
        ← ih hleft right (position + 1) (compare unordered none false a b _ [])]

theorem mirrors_items {left right : List Json} (hleft : ∀ a ∈ left, a.IsProper)
    (hright : ∀ b ∈ right, b.IsProper) (hmirrored : ∀ a ∈ left, IsMirrored unordered a)
    (position : Nat) :
    Mirrors (compareItems unordered none right left place position [])
      (compareItems unordered none left right place position []) := by
  induction left generalizing right position with
  | nil => cases right <;> exact .refl _
  | cons a left ih =>
    cases right with
    | nil => exact .refl _
    | cons b right =>
      obtain ⟨_, hleft⟩ := List.forall_mem_cons.mp hleft
      obtain ⟨hb, hright⟩ := List.forall_mem_cons.mp hright
      obtain ⟨ha, hmirrored⟩ := List.forall_mem_cons.mp hmirrored
      rw [compareItems, compareItems, compareItems_unlimited hleft,
        compareItems_unlimited hright]
      exact (ha b hb false _).append (ih hleft hright hmirrored (position + 1))

theorem mirrors_sequences {left right : List Json} (hleft : (Json.arr left).IsProper)
    (hright : (Json.arr right).IsProper) (hmirrored : ∀ a ∈ left, IsMirrored unordered a) :
    Mirrors (compare unordered none loose (.arr right) (.arr left) place [])
      (compare unordered none loose (.arr left) (.arr right) place []) := by
  cases loose with
  | true =>
    have hsingle : ∀ xs ys : List Json,
        compare unordered none true (.arr xs) (.arr ys) place [] = [] ∨
          compare unordered none true (.arr xs) (.arr ys) place [] =
            [⟨place, .unordered (.arr xs) (.arr ys)⟩] := by
      intro xs ys
      rw [compare, if_pos rfl]
      split
      · exact .inl rfl
      · exact .inr rfl
    exact mirrors_of_single hleft hright _ (hsingle left right) (hsingle right left)
  | false =>
    have hguard : ∀ xs ys : List Json,
        compare unordered none false (.arr xs) (.arr ys) place [] =
          if xs.length = ys.length then compareItems unordered none xs ys place 0 []
          else [⟨place, .lengths xs.length ys.length⟩] := fun _ _ => rfl
    rw [hguard, hguard]
    by_cases hlength : left.length = right.length
    · rw [if_pos hlength, if_pos hlength.symm]
      exact mirrors_items (Json.isProper_arr_iff.mp hleft) (Json.isProper_arr_iff.mp hright)
        hmirrored 0
    · rw [if_neg hlength, if_neg (Ne.symm hlength)]
      exact mirrors_single place (.lengths left.length right.length)

theorem map_swap_missing (mismatch : Mismatch) (left right : Document) (place : Location) :
    (missing mismatch left right place).map swap = missing mismatch.swap left right place := by
  simp [missing, swap]

def differencesUnder (unordered : List String) (place : Location) (left right : Document)
    (key : String) : List Difference :=
  match left.get? key, right.get? key with
  | some a, some b =>
    compare unordered none (unordered.contains key) a b (place.push (.member key)) []
  | _, _ => []

/-- Without a limit the differences of the members are those under the keys that both objects name,
in the order of the left one. -/
theorem compareMembers_unlimited (unordered : List String) (place : Location) {left : Document}
    (right : Document)
    {members : List (String × Json)}
    (hmembers : ∀ member ∈ members, left.get? member.1 = some member.2 ∧ member.2.IsProper)
    (found : List Difference) :
    compareMembers unordered none members right place found = found ++
      ((Document.keys members).filter right.has).flatMap
        (differencesUnder unordered place left right) := by
  induction members generalizing found with
  | nil => simp [compareMembers, Document.keys]
  | cons member members ih =>
    obtain ⟨key, a⟩ := member
    obtain ⟨⟨hfound, ha⟩, hmembers⟩ := List.forall_mem_cons.mp hmembers
    have hfound : left.get? key = some a := hfound
    rw [compareMembers, ih hmembers]
    cases hother : right.get? key with
    | none =>
      have hhas : right.has key = false := by
        rw [Bool.eq_false_iff, ne_eq, Document.has_iff, hother]
        simp
      simp [Document.keys, hhas]
    | some b =>
      have hhas : right.has key := Document.has_iff.mpr ⟨b, hother⟩
      have hunder : differencesUnder unordered place left right key =
          compare unordered none (unordered.contains key) a b (place.push (.member key)) [] := by
        rw [differencesUnder, hfound, hother]
      simp only [Document.keys, List.map_cons, List.filter_cons, hhas, if_true,
        List.flatMap_cons, hunder]
      rw [compare_unlimited ha, List.append_assoc]

/-- The keys that two objects name are the same on both sides, in two orders. -/
theorem perm_shared_keys {left right : Document} (hleft : left.keys.Nodup)
    (hright : right.keys.Nodup) :
    (right.keys.filter left.has).Perm (left.keys.filter right.has) := by
  rw [List.perm_ext_iff_of_nodup (hright.filter _) (hleft.filter _)]
  intro key
  rw [List.mem_filter, List.mem_filter, Document.has_eq_mem, Document.has_eq_mem, and_comm]

theorem mirrors_members {left right : Document} (hleft : (Json.obj left).IsProper)
    (hright : (Json.obj right).IsProper)
    (hmirrored : ∀ member ∈ left, IsMirrored unordered member.2) :
    Mirrors (compareMembers unordered none right left place [])
      (compareMembers unordered none left right place []) := by
  obtain ⟨hleft_nodup, hleft_proper⟩ := Json.isProper_obj_iff.mp hleft
  obtain ⟨hright_nodup, hright_proper⟩ := Json.isProper_obj_iff.mp hright
  have hleft_listed := compareMembers_unlimited unordered place right
    (fun member hmem => ⟨Document.get?_of_mem hleft_nodup hmem, hleft_proper member hmem⟩) []
  have hright_listed := compareMembers_unlimited unordered place left
    (fun member hmem => ⟨Document.get?_of_mem hright_nodup hmem, hright_proper member hmem⟩) []
  rw [Mirrors, hleft_listed, hright_listed, List.nil_append, List.nil_append, List.map_flatMap]
  refine ((perm_shared_keys hleft_nodup hright_nodup).flatMap_right _).trans ?_
  apply List.Perm.flatMap_left
  intro key _
  change Mirrors (differencesUnder unordered place right left key)
    (differencesUnder unordered place left right key)
  rw [differencesUnder, differencesUnder]
  cases ha : left.get? key with
  | none => cases right.get? key <;> exact .refl _
  | some a =>
    cases hb : right.get? key with
    | none => exact .refl _
    | some b =>
      have hproper := hright_proper _ (Document.mem_of_get? hb)
      exact hmirrored _ (Document.mem_of_get? ha) b hproper (unordered.contains key) _

theorem mirrors_objects {left right : Document} (hleft : (Json.obj left).IsProper)
    (hright : (Json.obj right).IsProper)
    (hmirrored : ∀ member ∈ left, IsMirrored unordered member.2) :
    Mirrors (compare unordered none loose (.obj right) (.obj left) place [])
      (compare unordered none loose (.obj left) (.obj right) place []) := by
  have hcompare : ∀ xs ys : Document, (Json.obj xs).IsProper →
      compare unordered none loose (.obj xs) (.obj ys) place [] =
        (missing .onlyLeft xs ys place ++ missing .onlyRight ys xs place) ++
          compareMembers unordered none xs ys place [] := by
    intro xs ys hxs
    obtain ⟨hnodup, hproper⟩ := Json.isProper_obj_iff.mp hxs
    have hmembers := compareMembers_unlimited unordered place ys
      (fun member hmem => ⟨Document.get?_of_mem hnodup hmem, hproper member hmem⟩)
    rw [compare, if_neg (by simp [enough]), hmembers, hmembers [], List.nil_append,
      List.nil_append]
  rw [hcompare right left hright, hcompare left right hleft]
  refine Mirrors.append ?_ (mirrors_members hleft hright hmirrored)
  rw [Mirrors, List.map_append, map_swap_missing, map_swap_missing]
  exact List.perm_append_comm

/-- The comparison of every two values that name no key twice is the mirror image of the comparison
the other way round. -/
theorem isMirrored (unordered : List String) {a : Json} (ha : a.IsProper) :
    IsMirrored unordered a := by
  induction a using Json.value_induction with
  | scalar value hscalar =>
    intro b hb loose place
    refine mirrors_scalars ha hb ?_ ?_ <;> rintro _ _ rfl <;> cases hscalar
  | arr left ih =>
    intro b hb loose place
    have hitems := Json.isProper_arr_iff.mp ha
    cases b with
    | arr right => exact mirrors_sequences ha hb fun item hmem => ih item hmem (hitems item hmem)
    | _ => exact mirrors_scalars ha hb nofun nofun
  | obj left ih =>
    intro b hb loose place
    obtain ⟨_, hmembers⟩ := Json.isProper_obj_iff.mp ha
    cases b with
    | obj right =>
      exact mirrors_objects ha hb fun member hmem => ih member hmem (hmembers member hmem)
    | _ => exact mirrors_scalars ha hb nofun nofun

end Difference

/-- The differences of two documents, taken without a limit, are with the documents exchanged the
same ones with their sides exchanged, in some order; there are as many of them. -/
theorem documentDiff_swap {a b : Json} (ha : a.IsProper) (hb : b.IsProper)
    (unordered : List String) :
    (documentDiff b a unordered none).Perm
        ((documentDiff a b unordered none).map Difference.swap) ∧
      (documentDiff b a unordered none).length = (documentDiff a b unordered none).length := by
  have hmirrors : (documentDiff b a unordered none).Perm
      ((documentDiff a b unordered none).map Difference.swap) :=
    Difference.isMirrored unordered ha b hb false (.start "$")
  refine ⟨hmirrors, ?_⟩
  rw [hmirrors.length_eq, List.length_map]

/-- A lacking key, two values, two unordered sequences and two lengths, which the two runs meet in
two orders. -/
theorem documentDiff_swap_order :
    let a : Json := .obj [("x", .num (.int 1)), ("required", .arr [.str "p", .str "q"]),
      ("y", .arr [.num (.int 0)])]
    let b : Json := .obj [("y", .arr []), ("required", .arr [.str "q"]), ("z", .null),
      ("x", .bool true)]
    a.IsProper ∧ b.IsProper ∧
      (documentDiff b a ["required"] none).Perm
        [⟨⟨"$", [.member "z"]⟩, .onlyLeft⟩,
          ⟨⟨"$", [.member "x"]⟩, .values (.bool true) (.num (.int 1))⟩,
          ⟨⟨"$", [.member "required"]⟩,
            .unordered (.arr [.str "q"]) (.arr [.str "p", .str "q"])⟩,
          ⟨⟨"$", [.member "y"]⟩, .lengths 0 1⟩] := by
  intro a b
  have ha : a.IsProper := by
    simp [a, Json.IsProper, Json.MembersProper, Json.AreProper, Number.isFinite]
  have hb : b.IsProper := by
    simp [b, Json.IsProper, Json.MembersProper, Json.AreProper]
  refine ⟨ha, hb, (documentDiff_swap ha hb ["required"]).1.trans (.of_eq ?_)⟩
  decide +kernel

end ShapeSchema
