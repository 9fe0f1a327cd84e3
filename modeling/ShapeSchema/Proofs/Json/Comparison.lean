import ShapeSchema.Proofs.Json.Equivalence
import ShapeSchema.Schema.Difference

/-!
The comparison of documents finds no difference exactly between documents that say the same. Where
order does not matter, every item takes the first partner that is left; this loses no arrangement,
since items that say the same as one partner say the same as each other's partners.
-/

namespace ShapeSchema

namespace Difference

/-- Whether a step only adds to the differences found before, and adds none exactly if something
holds, unless enough were found already. -/
def Reports (limit : Option Int) (found after : List Difference) (P : Prop) : Prop :=
  ∃ more, after = found ++ more ∧ (enough limit found = false → (more = [] ↔ P))

namespace Reports

variable {limit : Option Int} {found middle after : List Difference} {P Q : Prop}

theorem nothing (hP : P) : Reports limit found found P :=
  ⟨[], (List.append_nil found).symm, fun _ => ⟨fun _ => hP, fun _ => rfl⟩⟩

theorem stopped (henough : enough limit found) : Reports limit found found P :=
  ⟨[], (List.append_nil found).symm, fun h => absurd henough (by simp [h])⟩

theorem difference (difference : Difference) (hP : ¬ P) :
    Reports limit found (found ++ [difference]) P :=
  ⟨[difference], rfl, fun _ => ⟨nofun, fun h => absurd h hP⟩⟩

theorem congr (h : Reports limit found after P) (hPQ : P ↔ Q) : Reports limit found after Q := by
  obtain ⟨more, hafter, hmore⟩ := h
  exact ⟨more, hafter, fun henough => (hmore henough).trans hPQ⟩

/-- A further step starts where the first one ended, with as many differences if it added none. -/
theorem trans (hfirst : Reports limit found middle P) (hsecond : Reports limit middle after Q) :
    Reports limit found after (P ∧ Q) := by
  obtain ⟨more, rfl, hmore⟩ := hfirst
  obtain ⟨further, rfl, hfurther⟩ := hsecond
  refine ⟨more ++ further, List.append_assoc found more further, fun henough => ?_⟩
  rw [List.append_eq_nil_iff]
  constructor
  · rintro ⟨rfl, rfl⟩
    rw [List.append_nil] at hfurther
    exact ⟨(hmore henough).mp rfl, (hfurther henough).mp rfl⟩
  · rintro ⟨hP, hQ⟩
    obtain rfl := (hmore henough).mpr hP
    rw [List.append_nil] at hfurther
    exact ⟨rfl, (hfurther henough).mpr hQ⟩

theorem eq_nil_iff (h : Reports limit [] after P) (henough : enough limit [] = false) :
    after = [] ↔ P := by
  obtain ⟨more, hafter, hmore⟩ := h
  rw [hafter, List.nil_append]
  exact hmore henough

end Reports

variable {unordered : List String} {limit : Option Int} {loose : Bool} {place : Location}
  {found : List Difference}

theorem reports_missing (mismatch : Mismatch) (left right : Document) :
    Reports limit found (found ++ missing mismatch left right place)
      (∀ key, left.has key → right.has key) := by
  refine ⟨_, rfl, fun _ => ?_⟩
  simp only [missing, List.map_eq_nil_iff, List.filter_eq_nil_iff, Bool.not_eq_true',
    Bool.not_eq_false]
  constructor
  · intro h key hkey
    obtain ⟨value, hfound⟩ := Document.has_iff.mp hkey
    exact h _ (Document.mem_of_get? hfound)
  · intro h member hmem
    exact h _ (Document.has_eq_mem.mpr (List.mem_map_of_mem hmem))

/-- An item that passes the test can be removed, and only such an item is. -/
theorem removeFirst_spec (test : Json → Bool) (items : List Json) :
    match removeFirst test items with
    | some rest => ∃ item, test item ∧ items.Perm (item :: rest)
    | none => ∀ item ∈ items, test item = false := by
  induction items with
  | nil => simp [removeFirst]
  | cons item rest ih =>
    rw [removeFirst]
    cases htest : test item with
    | true => exact ⟨item, htest, .refl _⟩
    | false =>
      rw [if_neg Bool.false_ne_true]
      cases hrest : removeFirst test rest with
      | none =>
        rw [hrest] at ih
        exact List.forall_mem_cons.mpr ⟨htest, ih⟩
      | some more =>
        rw [hrest] at ih
        obtain ⟨found, hfound, hperm⟩ := ih
        exact ⟨found, hfound, (hperm.cons item).trans (.swap found item more)⟩

def Matches (R : Json → Json → Prop) (left right : List Json) : Prop :=
  ∃ arranged : List Json, arranged.Perm right ∧ List.Forall₂ R left arranged

section Matches

variable {R : Json → Json → Prop} {left right others : List Json} {a b : Json}

theorem Matches.cons (hab : R a b) (h : Matches R left right) :
    Matches R (a :: left) (b :: right) := by
  obtain ⟨arranged, harranged, hitems⟩ := h
  exact ⟨b :: arranged, harranged.cons b, .cons hab hitems⟩

theorem Matches.perm_right (h : Matches R left right) (hperm : right.Perm others) :
    Matches R left others := by
  obtain ⟨arranged, harranged, hitems⟩ := h
  exact ⟨arranged, harranged.trans hperm, hitems⟩

theorem Matches.perm_left (h : Matches R left right) (hperm : others.Perm left) :
    Matches R others right := by
  obtain ⟨arranged, harranged, hitems⟩ := h
  obtain ⟨moved, hmoved, hperm'⟩ := List.perm_comp_forall₂ hperm hitems
  exact ⟨moved, hperm'.trans harranged, hmoved⟩

/-- The first item on the left has a partner on the right, and the others match without these. -/
theorem Matches.uncons_left (h : Matches R (a :: left) right) :
    ∃ c rest, right.Perm (c :: rest) ∧ R a c ∧ Matches R left rest := by
  obtain ⟨arranged, hperm, hitems⟩ := h
  obtain ⟨c, rest, hac, hrest, rfl⟩ := List.forall₂_cons_left_iff.mp hitems
  exact ⟨c, rest, hperm.symm, hac, rest, .refl rest, hrest⟩

theorem Matches.uncons_right (h : Matches R left (b :: right)) :
    ∃ x rest, left.Perm (x :: rest) ∧ R x b ∧ Matches R rest right := by
  obtain ⟨arranged, hperm, hitems⟩ := h
  obtain ⟨moved, hmoved, hperm'⟩ := List.perm_comp_forall₂ hperm.symm hitems.flip
  obtain ⟨x, rest, hxb, hrest, rfl⟩ := List.forall₂_cons_left_iff.mp hmoved
  exact ⟨x, rest, hperm'.symm, hxb, right, .refl right, hrest.flip⟩

/-- Any partner of the first item will do: whoever else has it as a partner can take the partner
that the first item had. -/
theorem Matches.of_partner (h : Matches R (a :: left) (b :: right))
    (hexchange : ∀ x ∈ left, ∀ c ∈ right, R x b → R a c → R x c) : Matches R left right := by
  obtain ⟨c, rest, hperm, hac, hrest⟩ := h.uncons_left
  by_cases hbc : b = c
  · subst hbc
    exact hrest.perm_right hperm.cons_inv.symm
  · have hb : b ∈ rest := by
      have hmem : b ∈ c :: rest := hperm.mem_iff.mp List.mem_cons_self
      exact (List.mem_cons.mp hmem).resolve_left hbc
    have hmore : rest.Perm (b :: rest.erase b) := List.perm_cons_erase hb
    have hright : right.Perm (c :: rest.erase b) := by
      have hboth : (b :: right).Perm (b :: c :: rest.erase b) :=
        hperm.trans ((hmore.cons c).trans (.swap b c _))
      exact hboth.cons_inv
    obtain ⟨x, xs, hleft, hxb, hxs⟩ := (hrest.perm_right hmore).uncons_right
    have hxc : R x c := by
      have hx : x ∈ left := hleft.mem_iff.mpr List.mem_cons_self
      have hc : c ∈ right := hright.mem_iff.mpr List.mem_cons_self
      exact hexchange x hx c hc hxb hac
    exact ((hxs.cons hxc).perm_right hright.symm).perm_left hleft

end Matches

/-- Whether the comparison of a value with any other one that names no key twice reports whether
they say the same. -/
def Decides (unordered : List String) (a : Json) : Prop :=
  ∀ (b : Json), b.IsProper → ∀ (limit : Option Int) (loose : Bool) (place : Location)
    (found : List Difference), Reports limit found
      (compare unordered limit loose a b place found) (Json.Equivalent unordered loose a b)

theorem Decides.same_iff {a b : Json} (h : Decides unordered a) (hb : b.IsProper) :
    (compare unordered (some 1) false a b (.start "$") []).isEmpty ↔
      Json.Equivalent unordered false a b := by
  rw [List.isEmpty_iff]
  exact (h b hb (some 1) false (.start "$") []).eq_nil_iff rfl

/-- Taking the first partner that is left finds an arrangement whenever there is one. -/
theorem matchItems_iff {left right : List Json} (hleft : ∀ a ∈ left, Decides unordered a)
    (hright : ∀ b ∈ right, b.IsProper) (hlength : left.length = right.length) :
    matchItems unordered left right ↔ Matches (Json.Equivalent unordered false) left right := by
  induction left generalizing right with
  | nil =>
    obtain rfl := List.eq_nil_of_length_eq_zero hlength.symm
    exact ⟨fun _ => ⟨[], .refl [], .nil⟩, fun _ => rfl⟩
  | cons a left ih =>
    obtain ⟨ha, hrest⟩ := List.forall_mem_cons.mp hleft
    let test : Json → Bool :=
      fun b => (compare unordered (some 1) false a b (.start "$") []).isEmpty
    have hspec := removeFirst_spec test right
    rw [matchItems]
    split at hspec
    · next rest hremoved =>
      obtain ⟨b, htest, hperm⟩ := hspec
      have hproper : ∀ c ∈ b :: rest, c.IsProper := fun c hc => hright c (hperm.mem_iff.mpr hc)
      obtain ⟨hb, hothers⟩ := List.forall_mem_cons.mp hproper
      have hab : Json.Equivalent unordered false a b := (ha.same_iff hb).mp htest
      have hlength : left.length = rest.length := by
        have hsame := hperm.length_eq
        simp only [List.length_cons] at hlength hsame
        omega
      rw [hremoved]
      refine (ih hrest hothers hlength).trans ⟨fun h => ?_, fun h => ?_⟩
      · exact (h.cons hab).perm_right hperm.symm
      · refine (h.perm_right hperm).of_partner fun x _ c _ hxb hac => ?_
        exact (hxb.trans (hab.symm hb)).trans hac
    · next hremoved =>
      rw [hremoved]
      refine ⟨fun h => absurd h Bool.false_ne_true, fun h => ?_⟩
      obtain ⟨b, _, hperm, hab, _⟩ := h.uncons_left
      have hmem : b ∈ right := hperm.mem_iff.mpr List.mem_cons_self
      have htest : test b = true := (ha.same_iff (hright b hmem)).mpr hab
      rw [hspec b hmem] at htest
      exact absurd htest Bool.false_ne_true

theorem reports_items {left right : List Json} (hleft : ∀ a ∈ left, Decides unordered a)
    (hright : ∀ b ∈ right, b.IsProper) (hlength : left.length = right.length) (position : Nat) :
    Reports limit found (compareItems unordered limit left right place position found)
      (List.Forall₂ (Json.Equivalent unordered false) left right) := by
  induction left generalizing right position found with
  | nil =>
    obtain rfl := List.eq_nil_of_length_eq_zero hlength.symm
    exact .nothing .nil
  | cons a left ih =>
    cases right with
    | nil => cases hlength
    | cons b right =>
      obtain ⟨ha, hleft⟩ := List.forall_mem_cons.mp hleft
      obtain ⟨hb, hright⟩ := List.forall_mem_cons.mp hright
      have hfirst := ha b hb limit false (place.push (.index position)) found
      have hlength : left.length = right.length := Nat.succ.inj hlength
      rw [compareItems]
      have hboth := hfirst.trans (ih hleft hright hlength (position + 1))
      exact hboth.congr List.forall₂_cons.symm

theorem reports_members {left : List (String × Json)} {right : Document}
    (hleft : ∀ member ∈ left, Decides unordered member.2)
    (hright : ∀ member ∈ right, member.2.IsProper) :
    Reports limit found (compareMembers unordered limit left right place found)
      (∀ member ∈ left, ∀ b, right.get? member.1 = some b →
        Json.Equivalent unordered (unordered.contains member.1) member.2 b) := by
  induction left generalizing found with
  | nil => exact .nothing (by simp)
  | cons member left ih =>
    obtain ⟨key, a⟩ := member
    obtain ⟨ha, hleft⟩ := List.forall_mem_cons.mp hleft
    rw [compareMembers]
    cases hfound : right.get? key with
    | none =>
      refine (ih hleft).congr ?_
      rw [List.forall_mem_cons]
      simp [hfound]
    | some b =>
      have hb := hright _ (Document.mem_of_get? hfound)
      have hfirst := ha b hb limit (unordered.contains key) (place.push (.member key)) found
      refine (hfirst.trans (ih hleft)).congr ?_
      rw [List.forall_mem_cons]
      simp only [hfound, Option.some.injEq, forall_eq']

/-- Values that are not both objects or both sequences are compared as scalars. -/
theorem compare_scalars {a b : Json} (hobj : ∀ left right, a = .obj left → b ≠ .obj right)
    (harr : ∀ left right, a = .arr left → b ≠ .arr right) :
    compare unordered limit loose a b place found =
      if enough limit found || scalarsEqual a b then found
      else found ++ [⟨place, .values a b⟩] := by
  cases a with
  | obj left =>
    cases b with
    | obj right => exact absurd rfl (hobj left right rfl)
    | _ => rfl
  | arr left =>
    cases b with
    | arr right => exact absurd rfl (harr left right rfl)
    | _ => rfl
  | _ => cases b <;> rfl

theorem reports_scalars {a b : Json} (hobj : ∀ left right, a = .obj left → b ≠ .obj right)
    (harr : ∀ left right, a = .arr left → b ≠ .arr right) :
    Reports limit found (compare unordered limit loose a b place found)
      (Json.Equivalent unordered loose a b) := by
  have hsame : Json.Equivalent unordered loose a b ↔ scalarsEqual a b := by
    cases a with
    | arr left => cases b <;> simp_all [Json.Equivalent, scalarsEqual]
    | obj left => cases b <;> simp_all [Json.Equivalent, scalarsEqual]
    | bool x =>
      cases b with
      | bool y => simpa [Json.Equivalent, scalarsEqual] using eq_comm
      | _ => simp [Json.Equivalent, scalarsEqual]
    | str x =>
      cases b with
      | str y => simpa [Json.Equivalent, scalarsEqual] using eq_comm
      | _ => simp [Json.Equivalent, scalarsEqual]
    | _ => cases b <;> simp [Json.Equivalent, scalarsEqual]
  rw [compare_scalars hobj harr]
  cases henough : enough limit found with
  | true => exact .stopped henough
  | false =>
    cases hscalars : scalarsEqual a b with
    | true => exact .nothing (hsame.mpr hscalars)
    | false => exact .difference _ fun h => absurd (hsame.mp h) (by simp [hscalars])

theorem reports_sequences {left right : List Json} (hleft : ∀ a ∈ left, Decides unordered a)
    (hright : ∀ b ∈ right, b.IsProper) :
    Reports limit found (compare unordered limit loose (.arr left) (.arr right) place found)
      (Json.Equivalent unordered loose (.arr left) (.arr right)) := by
  rw [compare]
  cases loose with
  | true =>
    have hsame : Json.Equivalent unordered true (.arr left) (.arr right) ↔
        Matches (Json.Equivalent unordered false) left right := by
      rw [Json.equivalent_arr_iff]
      exact ⟨fun ⟨_, heq, h⟩ => Json.arr.inj heq ▸ h, fun h => ⟨right, rfl, h⟩⟩
    have hmatch : left.length = right.length ∧ matchItems unordered left right ↔
        Matches (Json.Equivalent unordered false) left right := by
      constructor
      · rintro ⟨hlength, hmatch⟩
        exact (matchItems_iff hleft hright hlength).mp hmatch
      · intro h
        have hlength : left.length = right.length := by
          obtain ⟨arranged, hperm, hitems⟩ := h
          exact hitems.length_eq.trans hperm.length_eq
        exact ⟨hlength, (matchItems_iff hleft hright hlength).mpr h⟩
    rw [if_pos rfl]
    split
    · next h => exact .nothing (hsame.mpr (hmatch.mp h))
    · next h => exact .difference _ fun hequivalent => h (hmatch.mpr (hsame.mp hequivalent))
  | false =>
    have hsame : Json.Equivalent unordered false (.arr left) (.arr right) ↔
        List.Forall₂ (Json.Equivalent unordered false) left right := by
      rw [Json.equivalent_arr_iff]
      constructor
      · rintro ⟨_, ⟨⟩, _, rfl, hitems⟩
        exact hitems
      · exact fun hitems => ⟨right, rfl, right, rfl, hitems⟩
    rw [if_neg Bool.false_ne_true]
    split
    · next henough => exact .stopped henough
    · split
      · next hlength => exact (reports_items hleft hright hlength 0).congr hsame.symm
      · next hlength => exact .difference _ fun h => hlength (hsame.mp h).length_eq

theorem reports_objects {left right : Document}
    (hleft : ∀ member ∈ left, Decides unordered member.2)
    (hright : ∀ member ∈ right, member.2.IsProper) :
    Reports limit found (compare unordered limit loose (.obj left) (.obj right) place found)
      (Json.Equivalent unordered loose (.obj left) (.obj right)) := by
  rw [compare]
  split
  · next henough => exact .stopped henough
  · have hforth : Reports limit found (found ++ missing .onlyLeft left right place)
        (∀ key, left.has key → right.has key) :=
      reports_missing .onlyLeft left right
    have hback : Reports limit (found ++ missing .onlyLeft left right place)
        (found ++ missing .onlyLeft left right place ++ missing .onlyRight right left place)
        (∀ key, right.has key → left.has key) :=
      reports_missing .onlyRight right left
    refine ((hforth.trans hback).trans (reports_members hleft hright)).congr ?_
    rw [Json.equivalent_obj_iff]
    constructor
    · rintro ⟨⟨hforth, hback⟩, hmembers⟩
      refine ⟨right, rfl, fun key => ?_, fun member hmem => ?_⟩
      · exact Bool.eq_iff_iff.mpr ⟨hforth key, hback key⟩
      · have hhas := hforth _ (Document.has_eq_mem.mpr (List.mem_map_of_mem hmem))
        obtain ⟨value, hvalue⟩ := Document.has_iff.mp hhas
        exact ⟨value, hvalue, hmembers member hmem value hvalue⟩
    · rintro ⟨_, ⟨⟩, hkeys, hmembers⟩
      refine ⟨⟨fun key hkey => hkeys key ▸ hkey, fun key hkey => hkeys key ▸ hkey⟩, ?_⟩
      intro member hmem value hvalue
      obtain ⟨other, hother, hsame⟩ := hmembers member hmem
      cases hvalue.symm.trans hother
      exact hsame

/-- The comparison reports of every two documents whether they say the same. -/
theorem decides (unordered : List String) (a : Json) : Decides unordered a := by
  induction a using Json.value_induction with
  | scalar value hscalar =>
    intro b hb limit loose place found
    refine reports_scalars ?_ ?_ <;> rintro _ _ rfl <;> cases hscalar
  | arr left ih =>
    intro b hb limit loose place found
    cases b with
    | arr right => exact reports_sequences ih (Json.areProper_iff.mp hb)
    | _ => exact reports_scalars nofun nofun
  | obj left ih =>
    intro b hb limit loose place found
    cases b with
    | obj right => exact reports_objects ih (Json.membersProper_iff.mp hb.2)
    | _ => exact reports_scalars nofun nofun

end Difference

/-- Two documents are equal, and have no differences up to any limit of at least one, exactly if
they say the same. -/
theorem documentsEqual_iff_equivalent {a b : Json} (hb : b.IsProper) (unordered : List String)
    {limit : Option Int} (hlimit : ∀ n, limit = some n → 1 ≤ n) :
    (documentsEqual a b unordered ↔ Json.Equivalent unordered false a b) ∧
      (documentDiff a b unordered limit = [] ↔ Json.Equivalent unordered false a b) := by
  have hdecides := Difference.decides unordered a b hb
  refine ⟨Difference.Decides.same_iff (Difference.decides unordered a) hb, ?_⟩
  refine (hdecides limit false (.start "$") []).eq_nil_iff ?_
  cases limit with
  | none => rfl
  | some n =>
    have hn := hlimit n rfl
    simp only [Difference.enough, List.length_nil, decide_eq_false_iff_not]
    omega

/-- Reordered members, reordered items of an unordered key and a double with the value of an integer
are no differences, which a comparison up to three of them shows. -/
theorem equivalent_of_reordered :
    Json.Equivalent ["required"] false
      (.obj [("required", .arr [.str "a", .str "b"]), ("minimum", .num (.int 0))])
      (.obj [("minimum", .num (.double (.zero true))), ("required", .arr [.str "b", .str "a"])]) := by
  have hb : Json.IsProper
      (.obj [("minimum", .num (.double (.zero true))), ("required", .arr [.str "b", .str "a"])]) := by
    simp [Json.IsProper, Json.MembersProper, Json.AreProper, Number.isFinite, Double.isFinite,
      Double.zero]
  have hlimit : ∀ n, some (3 : Int) = some n → 1 ≤ n := by
    rintro _ ⟨⟩
    decide
  exact (documentsEqual_iff_equivalent hb ["required"] hlimit).2.mp (by decide +kernel)

end ShapeSchema
