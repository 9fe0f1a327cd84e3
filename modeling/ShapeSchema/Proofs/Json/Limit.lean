import ShapeSchema.Proofs.Json.Comparison

/-!
What a limit leaves of the differences of two documents. The comparison looks at the limit when it
begins with a value, not when it adds a difference. So it keeps the first differences up to the
limit, and of the later ones those that it adds without another look, in the objects that it had
begun with before the limit was reached.
-/

namespace ShapeSchema

inductive Json.HasDistinctKeys : Json → Prop where
  | scalar {value : Json} (hscalar : value.isScalar) : HasDistinctKeys value
  | arr {items : List Json} (hitems : ∀ item ∈ items, HasDistinctKeys item) :
      HasDistinctKeys (.arr items)
  | obj {members : List (String × Json)} (hnodup : (members.map Prod.fst).Nodup)
      (hmembers : ∀ member ∈ members, HasDistinctKeys member.2) : HasDistinctKeys (.obj members)

/-- Whether the comparison adds such a difference without a look at the limit. -/
def Mismatch.isUnguarded : Mismatch → Bool
  | .onlyLeft | .onlyRight | .unordered .. => true
  | .lengths .. | .values .. => false

namespace Difference

/-- Whether a difference is reported even though `last` was the last one that was asked for: it is
added without a look at the limit, in an object that `last` is part of. -/
def overruns (d last : Difference) : Bool :=
  d.mismatch.isUnguarded && d.place.steps.dropLast.isPrefixOf last.place.steps

/-- The differences found once a further one is met, where `bound + 1` were asked for. -/
def record (bound : Nat) (found : List Difference) (d : Difference) : List Difference :=
  if found[bound]?.all d.overruns then found ++ [d] else found

section Record

variable {bound : Nat} {found all : List Difference} {d last : Difference}

theorem overruns_iff : d.overruns last ↔
    d.mismatch.isUnguarded ∧ d.place.steps.dropLast <+: last.place.steps := by
  rw [overruns, Bool.and_eq_true, List.isPrefixOf_iff_prefix]

theorem record_of_overruns (h : ∀ last, found[bound]? = some last → d.overruns last) :
    record bound found d = found ++ [d] :=
  if_pos ((Option.all_eq_true _ _).mpr h)

theorem getElem?_append_single (hlast : (found ++ [d])[bound]? = some last) :
    found[bound]? = some last ∨ last = d := by
  rw [List.getElem?_append] at hlast
  split at hlast
  · exact .inl hlast
  · exact .inr (List.mem_singleton.mp (List.mem_of_getElem? hlast))

/-- Up to the limit all differences are kept. -/
theorem foldl_record_of_short (hlength : found.length + all.length ≤ bound + 1) :
    all.foldl (record bound) found = found ++ all := by
  induction all generalizing found with
  | nil => simp
  | cons d rest ih =>
    rw [List.length_cons] at hlength
    have hnone : found[bound]? = none := List.getElem?_eq_none (by omega)
    have hrecord : record bound found d = found ++ [d] := record_of_overruns (by simp [hnone])
    rw [List.foldl_cons, hrecord, ih, List.append_assoc, List.singleton_append]
    rw [List.length_append, List.length_singleton]
    omega

/-- After it only those are kept that overrun the last one. -/
theorem foldl_record_of_full (hlast : found[bound]? = some last) :
    all.foldl (record bound) found = found ++ all.filter (·.overruns last) := by
  induction all generalizing found with
  | nil => simp
  | cons d rest ih =>
    rw [List.foldl_cons, record, hlast, Option.all_some]
    cases hover : d.overruns last with
    | true =>
      have hkept : (found ++ [d])[bound]? = some last := by
        rw [List.getElem?_append_left (List.getElem?_eq_some_iff.mp hlast).1, hlast]
      rw [if_pos rfl, ih hkept, List.filter_cons, if_pos hover, List.append_assoc,
        List.singleton_append]
    | false =>
      rw [if_neg Bool.false_ne_true, ih hlast, List.filter_cons, hover, if_neg Bool.false_ne_true]

theorem foldl_record (bound : Nat) (all : List Difference) :
    all.foldl (record bound) [] = all.take (bound + 1) ++
      (all.drop (bound + 1)).filter fun d => (all.take (bound + 1)).getLast?.any d.overruns := by
  have hshort : (all.take (bound + 1)).foldl (record bound) [] = all.take (bound + 1) := by
    refine foldl_record_of_short ?_
    rw [List.length_nil, Nat.zero_add]
    exact List.length_take_le (bound + 1) all
  conv_lhs => rw [← List.take_append_drop (bound + 1) all, List.foldl_append, hshort]
  by_cases hlength : bound < all.length
  · have htake : (all.take (bound + 1))[bound]? = some all[bound] := by
      rw [List.getElem?_take_of_lt (Nat.lt_succ_self bound), List.getElem?_eq_getElem hlength]
    have hlast : (all.take (bound + 1)).getLast? = some all[bound] := by
      rw [List.getLast?_eq_getElem?, List.length_take, Nat.min_eq_left hlength]
      exact htake
    simp only [foldl_record_of_full htake, hlast, Option.any_some]
  · rw [List.drop_eq_nil_of_le (by omega)]
    simp

/-- The last difference asked for is one of those before or one of those met. -/
theorem getElem?_foldl_record (hlast : (all.foldl (record bound) found)[bound]? = some last) :
    found[bound]? = some last ∨ last ∈ all := by
  induction all generalizing found with
  | nil => exact .inl hlast
  | cons d rest ih =>
    rcases ih hlast with hfound | hmem
    · rw [record] at hfound
      split at hfound
      · rcases getElem?_append_single hfound with hfound | rfl
        · exact .inl hfound
        · exact .inr List.mem_cons_self
      · exact .inl hfound
    · exact .inr (List.mem_cons_of_mem d hmem)

end Record

/-- Whether a step of the comparison adds certain differences, all of them without a limit. With a
limit it records one by one those that are left to be asked for, and those that overrun the last
one; for this, a last one that was found before has to be `ahead` of the step. -/
structure Lists (bound : Nat) (within ahead : List Step → Prop)
    (step : Option Int → List Difference → List Difference) (all : List Difference) : Prop where
  unlimited : ∀ found, step none found = found ++ all
  limited : ∀ found, (∀ last, found[bound]? = some last → ahead last.place.steps) →
    step (some ↑(bound + 1)) found = all.foldl (record bound) found
  within : ∀ d ∈ all, within d.place.steps

section Lists

variable {unordered : List String} {bound : Nat} {within within' ahead ahead' : List Step → Prop}
  {step step' : Option Int → List Difference → List Difference} {all all' : List Difference}

theorem enough_iff {found : List Difference} :
    enough (some ↑(bound + 1)) found ↔ ∃ last, found[bound]? = some last := by
  rw [enough, decide_eq_true_iff, ← Option.isSome_iff_exists, Option.isSome_iff_ne_none, ne_eq,
    List.getElem?_eq_none_iff]
  omega

theorem compare_of_enough {limit : Option Int} {a b : Json} {place : Location}
    {found : List Difference} (henough : enough limit found) :
    compare unordered limit false a b place found = found := by
  cases a <;> cases b <;> simp [compare, henough]

theorem Lists.mono (h : Lists bound within ahead step all)
    (hwithin : ∀ steps, within steps → within' steps)
    (hahead : ∀ steps, ahead' steps → ahead steps) :
    Lists bound within' ahead' step all where
  unlimited := h.unlimited
  limited found hfound := h.limited found fun last hlast => hahead _ (hfound last hlast)
  within d hmem := hwithin _ (h.within d hmem)

theorem Lists.nothing : Lists bound within ahead (fun _ found => found) [] where
  unlimited found := (List.append_nil found).symm
  limited _ _ := rfl
  within := nofun

/-- A single difference is recorded where the limit is not reached. -/
theorem Lists.single {d : Difference} (hwithin : within d.place.steps) :
    Lists bound within (fun _ => False) (fun _ found => found ++ [d]) [d] where
  unlimited _ := rfl
  limited _ hfound := (record_of_overruns fun last hlast => (hfound last hlast).elim).symm
  within := List.forall_mem_singleton.mpr hwithin

/-- Differences that are added without a look at the limit overrun a last one in the object that
they are about. -/
theorem Lists.unguarded (place : List Step) (hahead : ∀ steps, ahead steps → place <+: steps)
    (hunguarded : ∀ d ∈ all, d.mismatch.isUnguarded ∧ d.place.steps.dropLast = place)
    (hwithin : ∀ d ∈ all, within d.place.steps) :
    Lists bound within ahead (fun _ found => found ++ all) all where
  unlimited _ := rfl
  limited found hfound := by
    have hinside : ∀ last, found[bound]? = some last → place <+: last.place.steps :=
      fun last hlast => hahead _ (hfound last hlast)
    clear hfound hwithin
    induction all generalizing found with
    | nil => exact List.append_nil found
    | cons d rest ih =>
      obtain ⟨⟨hd, hplace⟩, hrest⟩ := List.forall_mem_cons.mp hunguarded
      have hrecord : record bound found d = found ++ [d] := by
        refine record_of_overruns fun last hlast => overruns_iff.mpr ⟨hd, ?_⟩
        exact hplace ▸ hinside last hlast
      rw [List.foldl_cons, hrecord, ← ih hrest, List.append_assoc, List.singleton_append]
      intro last hlast
      rcases getElem?_append_single hlast with hlast | rfl
      · exact hinside last hlast
      · exact hplace ▸ List.dropLast_prefix _
  within := hwithin

/-- A further step adds its differences to those of the first one. -/
theorem Lists.then (hfirst : Lists bound within ahead step all)
    (hsecond : Lists bound within ahead' step' all')
    (hkept : ∀ steps, ahead steps → ahead' steps) (hnew : ∀ d ∈ all, ahead' d.place.steps) :
    Lists bound within ahead (fun limit found => step' limit (step limit found)) (all ++ all') where
  unlimited found := by rw [hfirst.unlimited, hsecond.unlimited, List.append_assoc]
  limited found hfound := by
    rw [hfirst.limited found hfound, List.foldl_append]
    refine hsecond.limited _ fun last hlast => ?_
    rcases getElem?_foldl_record hlast with hlast | hmem
    · exact hkept _ (hfound last hlast)
    · exact hnew last hmem
  within := List.forall_mem_append.mpr ⟨hfirst.within, hsecond.within⟩

/-- A step that looks at the limit first adds nothing once it is reached, and none of its
differences overruns a last one that lies elsewhere. -/
theorem Lists.guarded {place : List Step} (h : Lists bound within (fun _ => False) step all)
    (hahead : ∀ steps, ahead steps → ¬ place <+: steps)
    (hplace : ∀ d ∈ all, d.mismatch.isUnguarded → place <+: d.place.steps.dropLast) :
    Lists bound within ahead
      (fun limit found => if enough limit found then found else step limit found) all where
  unlimited := h.unlimited
  limited found hfound := by
    cases hlast : found[bound]? with
    | none =>
      rw [if_neg fun henough => ?_]
      · exact h.limited found (by simp [hlast])
      · obtain ⟨last, hsome⟩ := enough_iff.mp henough
        cases hlast.symm.trans hsome
    | some last =>
      have hnone : all.filter (·.overruns last) = [] := by
        refine List.filter_eq_nil_iff.mpr fun d hmem hover => ?_
        obtain ⟨hd, hparent⟩ := overruns_iff.mp hover
        exact hahead _ (hfound last hlast) ((hplace d hmem hd).trans hparent)
      rw [if_pos (enough_iff.mpr ⟨last, hlast⟩), foldl_record_of_full hlast, hnone,
        List.append_nil]
  within := h.within

def IsUnder (place steps : List Step) : Prop := ∃ next, place ++ [next] <+: steps

theorem IsUnder.prefix_steps {place steps : List Step} (h : IsUnder place steps) :
    place <+: steps := by
  obtain ⟨next, hnext⟩ := h
  exact (List.prefix_append place [next]).trans hnext

theorem IsUnder.prefix_dropLast {place steps : List Step} (h : IsUnder place steps) :
    place <+: steps.dropLast := by
  obtain ⟨next, rest, rfl⟩ := h
  rw [List.append_assoc, List.dropLast_append_of_ne_nil (by simp)]
  exact List.prefix_append place _

/-- Whether a place is the given one or lies under it, but not under a step still to come. -/
def IsPast (place : List Step) (coming : Step → Prop) (steps : List Step) : Prop :=
  place <+: steps ∧ ∀ next, coming next → ¬ place ++ [next] <+: steps

theorem isPast_of_under {place steps : List Step} (next : Step) {coming : Step → Prop}
    (hsteps : place ++ [next] <+: steps) (hnext : ¬ coming next) : IsPast place coming steps := by
  refine ⟨(List.prefix_append place [next]).trans hsteps, fun other hother hsame => hnext ?_⟩
  have heq : place ++ [next] = place ++ [other] :=
    (List.prefix_of_prefix_length_le hsteps hsame (by simp)).eq_of_length (by simp)
  cases List.append_cancel_left heq
  exact hother

/-- The differences under one step are followed by those under steps still to come. -/
theorem Lists.under_then {place : List Step} {next : Step} {coming : Step → Prop}
    (hnext : ¬ coming next)
    (hfirst : Lists bound (place ++ [next] <+: ·) (IsPast place (· = next)) step all)
    (hrest : Lists bound (IsUnder place) (IsPast place coming) step' all') :
    Lists bound (IsUnder place) (IsPast place fun other => other = next ∨ coming other)
      (fun limit found => step' limit (step limit found)) (all ++ all') := by
  have hunder : Lists bound (IsUnder place) (IsPast place fun other => other = next ∨ coming other)
      step all :=
    hfirst.mono (fun _ h => ⟨next, h⟩) fun _ h => ⟨h.1, fun other hother => h.2 other (.inl hother)⟩
  refine hunder.then hrest (fun _ h => ⟨h.1, fun other hother => h.2 other (.inr hother)⟩) ?_
  exact fun d hmem => isPast_of_under next (hfirst.within d hmem) hnext

/-- Whether the comparison of a value with any other one lists their differences: those of
sequences without order in the object around them, all others at or under their place. -/
def Enumerates (unordered : List String) (bound : Nat) (a : Json) : Prop :=
  ∀ (b : Json) (loose : Bool) (place : Location) (ahead : List Step → Prop),
    (∀ steps, ahead steps → ¬ place.steps <+: steps) →
    (loose → ∀ steps, ahead steps → place.steps.dropLast <+: steps) →
    ∃ all, Lists bound (place.steps <+: ·) ahead
      (fun limit found => compare unordered limit loose a b place found) all

theorem lists_members {left : List (String × Json)} (right : Document) (place : Location)
    (hleft : ∀ member ∈ left, Enumerates unordered bound member.2)
    (hnodup : (left.map Prod.fst).Nodup) :
    ∃ all, Lists bound (IsUnder place.steps) (IsPast place.steps fun next =>
        ∃ key ∈ left.map Prod.fst, right.has key ∧ next = .member key)
      (fun limit found => compareMembers unordered limit left right place found) all := by
  induction left with
  | nil => exact ⟨[], .nothing⟩
  | cons member left ih =>
    obtain ⟨key, a⟩ := member
    obtain ⟨ha, hleft⟩ := List.forall_mem_cons.mp hleft
    obtain ⟨hfresh, hnodup⟩ := List.nodup_cons.mp hnodup
    obtain ⟨rest, hrest⟩ := ih hleft hnodup
    simp only [compareMembers]
    cases hfound : right.get? key with
    | none =>
      refine ⟨rest, hrest.mono (fun _ h => h) fun _ h => ⟨h.1, fun next hnext => h.2 next ?_⟩⟩
      obtain ⟨other, hmem, hhas⟩ := hnext
      exact ⟨other, List.mem_cons_of_mem key hmem, hhas⟩
    | some b =>
      obtain ⟨first, hfirst⟩ := ha b (unordered.contains key) (place.push (.member key))
        (IsPast place.steps (· = .member key)) (fun _ h => h.2 _ rfl)
        (fun _ _ h => by simpa [Location.push] using h.1)
      have hboth := hfirst.under_then ?_ hrest
      · refine ⟨first ++ rest, hboth.mono (fun _ h => h) fun _ h =>
          ⟨h.1, fun next hnext => h.2 next ?_⟩⟩
        rcases hnext with rfl | ⟨other, hmem, hother⟩
        · exact ⟨key, List.mem_cons_self, Document.has_iff.mpr ⟨b, hfound⟩, rfl⟩
        · exact ⟨other, List.mem_cons_of_mem key hmem, hother⟩
      · rintro ⟨other, hmem, -, hsame⟩
        cases hsame
        exact hfresh hmem

theorem lists_items {left : List Json} (right : List Json) (place : Location)
    (hleft : ∀ item ∈ left, Enumerates unordered bound item) (position : Nat) :
    ∃ all, Lists bound (IsUnder place.steps)
      (IsPast place.steps fun next => ∃ index ≥ position, next = .index index)
      (fun limit found => compareItems unordered limit left right place position found) all := by
  induction left generalizing right position with
  | nil => exact ⟨[], .nothing⟩
  | cons a left ih =>
    cases right with
    | nil => exact ⟨[], .nothing⟩
    | cons b right =>
      obtain ⟨ha, hleft⟩ := List.forall_mem_cons.mp hleft
      obtain ⟨rest, hrest⟩ := ih right hleft (position + 1)
      obtain ⟨first, hfirst⟩ := ha b false (place.push (.index position))
        (IsPast place.steps (· = .index position)) (fun _ h => h.2 _ rfl) nofun
      have hboth := hfirst.under_then ?_ hrest
      · simp only [compareItems]
        refine ⟨first ++ rest, hboth.mono (fun _ h => h) fun _ h =>
          ⟨h.1, fun next hnext => h.2 next ?_⟩⟩
        rcases hnext with rfl | ⟨index, hindex, rfl⟩
        · exact ⟨position, Nat.le_refl position, rfl⟩
        · exact ⟨index, Nat.le_of_succ_le hindex, rfl⟩
      · rintro ⟨index, hindex, hsame⟩
        cases hsame
        exact Nat.not_succ_le_self _ hindex

theorem lists_scalars {a b : Json} {loose : Bool} {place : Location}
    (hobj : ∀ left right, a = .obj left → b ≠ .obj right)
    (harr : ∀ left right, a = .arr left → b ≠ .arr right)
    (hahead : ∀ steps, ahead steps → ¬ place.steps <+: steps) :
    ∃ all, Lists bound (place.steps <+: ·) ahead
      (fun limit found => compare unordered limit loose a b place found) all := by
  let d : Difference := ⟨place, .values a b⟩
  have hcompare : ∀ limit found, compare unordered limit loose a b place found =
      if enough limit found then found else if scalarsEqual a b then found else found ++ [d] := by
    intro limit found
    rw [compare_scalars hobj harr]
    cases enough limit found <;> rfl
  simp only [hcompare]
  cases scalarsEqual a b with
  | true => exact ⟨[], Lists.nothing.guarded hahead nofun⟩
  | false =>
    have hsingle : Lists bound (place.steps <+: ·) (fun _ => False) _ [d] :=
      .single (List.prefix_refl place.steps)
    exact ⟨[d], hsingle.guarded hahead (List.forall_mem_singleton.mpr nofun)⟩

theorem lists_sequences {left right : List Json} {loose : Bool} {place : Location}
    (hleft : ∀ item ∈ left, Enumerates unordered bound item)
    (hahead : ∀ steps, ahead steps → ¬ place.steps <+: steps)
    (hloose : loose → ∀ steps, ahead steps → place.steps.dropLast <+: steps) :
    ∃ all, Lists bound (place.steps <+: ·) ahead
      (fun limit found => compare unordered limit loose (.arr left) (.arr right) place found)
      all := by
  simp only [compare]
  cases loose with
  | true =>
    by_cases hmatch : left.length = right.length ∧ matchItems unordered left right
    · exact ⟨[], by simpa only [if_true, if_pos hmatch] using .nothing⟩
    · let d : Difference := ⟨place, .unordered (.arr left) (.arr right)⟩
      have hd : Lists bound (place.steps <+: ·) ahead (fun _ found => found ++ [d]) [d] :=
        .unguarded place.steps.dropLast (hloose rfl) (List.forall_mem_singleton.mpr ⟨rfl, rfl⟩)
          (List.forall_mem_singleton.mpr (List.prefix_refl place.steps))
      exact ⟨[d], by simpa only [if_true, if_neg hmatch] using hd⟩
  | false =>
    simp only [Bool.false_eq_true, if_false]
    by_cases hlength : left.length = right.length
    · obtain ⟨all, hall⟩ := lists_items right place hleft 0
      have hitems : Lists bound (place.steps <+: ·) (fun _ => False) _ all :=
        hall.mono (fun _ h => h.prefix_steps) fun _ h => h.elim
      simp only [if_pos hlength]
      exact ⟨all, hitems.guarded hahead fun d hmem _ => (hall.within d hmem).prefix_dropLast⟩
    · let d : Difference := ⟨place, .lengths left.length right.length⟩
      have hsingle : Lists bound (place.steps <+: ·) (fun _ => False) _ [d] :=
        .single (List.prefix_refl place.steps)
      simp only [if_neg hlength]
      exact ⟨[d], hsingle.guarded hahead (by simp [d, Mismatch.isUnguarded])⟩

theorem mem_missing {mismatch : Mismatch} {left right : Document} {place : Location}
    {d : Difference} (hmem : d ∈ missing mismatch left right place) :
    d.mismatch = mismatch ∧ ∃ key, key ∈ left.keys ∧ ¬ right.has key ∧
      d.place = place.push (.member key) := by
  obtain ⟨member, hmember, rfl⟩ := List.mem_map.mp hmem
  obtain ⟨hleft, hright⟩ := List.mem_filter.mp hmember
  exact ⟨rfl, member.1, List.mem_map_of_mem hleft, by simpa using hright, rfl⟩

theorem lists_objects {left right : Document} {loose : Bool} {place : Location}
    (hleft : ∀ member ∈ left, Enumerates unordered bound member.2)
    (hnodup : (left.map Prod.fst).Nodup)
    (hahead : ∀ steps, ahead steps → ¬ place.steps <+: steps) :
    ∃ all, Lists bound (place.steps <+: ·) ahead
      (fun limit found => compare unordered limit loose (.obj left) (.obj right) place found)
      all := by
  let lacking := missing .onlyLeft left right place ++ missing .onlyRight right left place
  have hlacking : ∀ d ∈ lacking, d.mismatch.isUnguarded ∧ ∃ key,
      ¬ (key ∈ left.keys ∧ right.has key) ∧ d.place = place.push (.member key) := by
    refine List.forall_mem_append.mpr ⟨fun d hmem => ?_, fun d hmem => ?_⟩
    · obtain ⟨hmismatch, key, -, hright, hplace⟩ := mem_missing hmem
      exact ⟨by simp [hmismatch, Mismatch.isUnguarded], key, fun h => hright h.2, hplace⟩
    · obtain ⟨hmismatch, key, -, hleft, hplace⟩ := mem_missing hmem
      refine ⟨by simp [hmismatch, Mismatch.isUnguarded], key, fun h => hleft ?_, hplace⟩
      exact Document.has_eq_mem.mpr h.1
  have hunder : ∀ d ∈ lacking, IsUnder place.steps d.place.steps := by
    intro d hmem
    obtain ⟨-, key, -, hplace⟩ := hlacking d hmem
    exact ⟨.member key, by simp [hplace, Location.push]⟩
  obtain ⟨more, hmore⟩ := lists_members right place hleft hnodup
  have hfirst : Lists bound (IsUnder place.steps) (fun _ => False)
      (fun _ found => found ++ lacking) lacking := by
    refine .unguarded place.steps nofun (fun d hmem => ?_) hunder
    obtain ⟨hunguarded, key, -, hplace⟩ := hlacking d hmem
    exact ⟨hunguarded, by simp [hplace, Location.push]⟩
  have hall := hfirst.then hmore nofun fun d hmem => by
    obtain ⟨-, key, hkey, hplace⟩ := hlacking d hmem
    refine isPast_of_under (.member key) (by simp [hplace, Location.push]) ?_
    rintro ⟨other, hmem, hhas, ⟨⟩⟩
    exact hkey ⟨hmem, hhas⟩
  have hinside : Lists bound (place.steps <+: ·) (fun _ => False) _ _ :=
    hall.mono (fun _ h => h.prefix_steps) nofun
  refine ⟨lacking ++ more, ?_⟩
  simp only [compare, List.append_assoc]
  exact hinside.guarded hahead fun d hmem _ => (hall.within d hmem).prefix_dropLast

/-- The comparison lists the differences of every two values. -/
theorem enumerates (unordered : List String) (bound : Nat) {a : Json} (ha : a.HasDistinctKeys) :
    Enumerates unordered bound a := by
  induction ha with
  | scalar hscalar =>
    intro b loose place ahead hahead _
    refine lists_scalars ?_ ?_ hahead <;> rintro _ _ rfl <;> cases hscalar
  | arr _ ih =>
    intro b loose place ahead hahead hloose
    cases b with
    | arr right => exact lists_sequences ih hahead hloose
    | _ => exact lists_scalars nofun nofun hahead
  | obj hnodup _ ih =>
    intro b loose place ahead hahead _
    cases b with
    | obj right => exact lists_objects ih hnodup hahead
    | _ => exact lists_scalars nofun nofun hahead

end Lists

end Difference

/-- A comparison with a limit reports the first differences up to the limit and, of the later ones,
those that overrun the last of these; so it reports just the first ones if none does. -/
theorem documentDiff_limit {a : Json} (ha : a.HasDistinctKeys) (b : Json)
    (unordered : List String) (limit : Nat) :
    let all := documentDiff a b unordered none
    documentDiff a b unordered (some limit) = all.take limit ++
        (all.drop limit).filter (fun d => (all.take limit).getLast?.any d.overruns) ∧
      (documentDiff a b unordered (some limit) = all.take limit ↔
        ∀ d ∈ all.drop limit, ∀ last, (all.take limit).getLast? = some last →
          ¬ d.overruns last) := by
  intro all
  have hexact : documentDiff a b unordered (some limit) = all.take limit ++
      (all.drop limit).filter fun d => (all.take limit).getLast?.any d.overruns := by
    cases limit with
    | zero =>
      rw [documentDiff, Difference.compare_of_enough rfl]
      simp
    | succ bound =>
      obtain ⟨listed, hlisted⟩ := Difference.enumerates unordered bound ha b false
        (.start "$") (fun _ => False) nofun nofun
      have hall : all = listed := hlisted.unlimited []
      rw [hall, ← Difference.foldl_record]
      exact hlisted.limited [] nofun
  refine ⟨hexact, ?_⟩
  rw [hexact, List.append_right_eq_self, List.filter_eq_nil_iff]
  refine forall₂_congr fun d _ => ?_
  cases (all.take limit).getLast? <;> simp

/-- With a limit of one, a second lacking key of the same object is reported as well, and a value
that differs deeper down is not. -/
theorem documentDiff_limit_one :
    let a : Json := .obj [("x", .num (.int 1)), ("y", .num (.int 2)),
      ("z", .obj [("w", .num (.int 3))])]
    let b : Json := .obj [("z", .obj [("w", .num (.int 4))])]
    documentDiff a b [] (some 1) =
      [⟨⟨"$", [.member "x"]⟩, .onlyLeft⟩, ⟨⟨"$", [.member "y"]⟩, .onlyLeft⟩] := by
  intro a b
  have hz : Json.HasDistinctKeys (.obj [("w", .num (.int 3))]) :=
    .obj (by decide) (List.forall_mem_singleton.mpr (.scalar rfl))
  have ha : a.HasDistinctKeys := by
    refine .obj (by decide) (List.forall_mem_cons.mpr ⟨.scalar rfl, ?_⟩)
    exact List.forall_mem_cons.mpr ⟨.scalar rfl, List.forall_mem_singleton.mpr hz⟩
  refine ((documentDiff_limit ha b [] 1).1).trans ?_
  decide +kernel

/-- Both lacking keys are reported although one difference was asked for. -/
theorem documentDiff_exceeds_limit :
    let a : Json := .obj [("x", .num (.int 1)), ("y", .num (.int 2))]
    documentDiff a (.obj []) [] (some 1) ≠ (documentDiff a (.obj []) [] none).take 1 := by
  decide +kernel

end ShapeSchema
