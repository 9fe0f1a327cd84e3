import ShapeSchema.Proofs.Reflection.Stage
import ShapeSchema.Proofs.Shape.Correspondence

/-!
Where bounds may stand in a type expression. The refinements of a type expression, of what it
refines and of the one alternative of an optional one belong to the field around; a bound anywhere
inside a container, a wider union or an instance is out of place, and so is one inside the
annotations of a class that is named.
-/

namespace ShapeSchema

namespace Constraints

theorem merge_none (c : Constraints) : c.merge none = c := by
  simp [merge, none]

theorem hasBounds_merge (c other : Constraints) :
    (c.merge other).hasBounds = (c.hasBounds || other.hasBounds) := by
  have hor : ∀ x y : Option Json, (x <|> y).isSome = (x.isSome || y.isSome) := by
    intro x y
    cases x <;> simp
  simp only [hasBounds, hasLowerBound, merge, hor]
  cases c.minInclusive.isSome <;> cases c.minExclusive.isSome <;> cases c.maxInclusive.isSome <;>
    cases c.maxExclusive.isSome <;> simp

end Constraints

namespace Refinement

/-- Whether a refinement gives a bound, which null is not. -/
def GivesBound (refinement : Refinement) : Prop :=
  ∃ bound ∈ boundsOf refinement.addedConstraints, bound.getD .null ≠ .null

theorem GivesBound.hasBounds {refinement : Refinement} (h : refinement.GivesBound) :
    refinement.addedConstraints.hasBounds := by
  obtain ⟨bound, hmem, hbound⟩ := h
  cases bound with
  | none => exact absurd rfl hbound
  | some value =>
    simp only [boundsOf, Constraints.bounds, List.map_cons, List.map_nil, List.mem_cons,
      List.not_mem_nil, or_false] at hmem
    rcases hmem with heq | heq | heq | heq <;>
      simp [Constraints.hasBounds, Constraints.hasLowerBound, ← heq]

theorem allConstraints_append (refinements more : List Refinement) :
    allConstraints (refinements ++ more) =
      more.foldl (fun c refinement => c.merge refinement.addedConstraints)
        (allConstraints refinements) :=
  List.foldl_append

/-- Bounds are never lost, whatever is merged with them. -/
theorem hasBounds_allConstraints {refinements : List Refinement} {refinement : Refinement}
    (hmem : refinement ∈ refinements) (hbound : refinement.GivesBound) :
    (allConstraints refinements).hasBounds := by
  have hkept : ∀ (refinements : List Refinement) (c : Constraints),
      c.hasBounds ∨ refinement ∈ refinements →
        (refinements.foldl (fun c other => c.merge other.addedConstraints) c).hasBounds := by
    intro refinements
    induction refinements with
    | nil => exact fun c h => h.resolve_right List.not_mem_nil
    | cons first rest ih =>
      intro c h
      refine ih _ ?_
      rw [Constraints.hasBounds_merge, Bool.or_eq_true]
      rcases h with h | h
      · exact .inl (.inl h)
      · rcases List.mem_cons.mp h with rfl | h
        · exact .inl (.inr hbound.hasBounds)
        · exact .inr h
  exact hkept refinements .none (.inr hmem)

theorem eq_null_iff_of_alike {a b : Json} (halike : a.alike b) : a = .null ↔ b = .null := by
  constructor <;> rintro rfl
  · cases b <;> simp [Json.alike, Json.asNumber?] at halike ⊢
  · cases a <;> simp [Json.alike, Json.asNumber?] at halike ⊢

theorem exists_ne_null_iff_of_sameValues {values others : List (Option Json)}
    (hsame : sameValues values others) :
    (∃ bound ∈ values, bound.getD .null ≠ .null) ↔ ∃ bound ∈ others, bound.getD .null ≠ .null := by
  have halike : List.Forall₂ (fun a b => (a.getD .null).alike (b.getD .null)) values others := by
    rw [List.forall₂_iff_zip]
    simpa [sameValues] using hsame
  exact exists_mem_iff_of_forall₂ halike fun _ _ _ h => not_congr (eq_null_iff_of_alike h)

/-- The bounds of a set of bounds are its values. -/
theorem mem_boundsOf_constraints {bounds : BoundSet} {value : Option Json} :
    value ∈ boundsOf bounds.constraints ↔ value ∈ bounds.values := by
  simp only [boundsOf, Constraints.bounds, BoundSet.constraints, BoundSet.values, List.map_cons,
    List.map_nil, List.mem_cons, List.not_mem_nil, or_false]
  tauto

theorem bound?_getD (value : Json) : (bound? value).getD .null = value := by
  cases value <;> rfl

/-- Refinements that are the same give a bound both or neither. -/
theorem givesBound_iff_of_same {refinement other : Refinement} (hsame : refinement.same other) :
    refinement.GivesBound ↔ other.GivesBound := by
  cases refinement with
  | ge a | gt a | le a | lt a =>
    cases other <;> try cases hsame
    simp [GivesBound, boundsOf, Constraints.bounds, addedConstraints, Constraints.none, bound?_getD,
      eq_null_iff_of_alike hsame]
  | interval bounds =>
    cases other <;> try cases hsame
    simpa only [GivesBound, addedConstraints, mem_boundsOf_constraints] using
      exists_ne_null_iff_of_sameValues hsame
  | field label description =>
    cases other <;> try cases hsame
    simp only [same, Bool.and_eq_true, decide_eq_true_eq] at hsame
    rw [hsame.1, hsame.2]
  | constraints c =>
    cases other <;> try cases hsame
    simp only [same, Bool.and_eq_true] at hsame
    exact exists_ne_null_iff_of_sameValues hsame.2
  | kind | other => cases other <;> first | cases hsame | exact Iff.rfl

end Refinement

namespace TypeHead

def isMapping (head : TypeHead) : Bool :=
  head.origin? = some .dict || head.origin? = some .abcMapping ||
    head.origin? = some .abcMutableMapping

end TypeHead

namespace TypeExpr

/-- The refinements of an annotated type expression, without those of what it refines. -/
def ownRefinements : TypeExpr → List Refinement
  | annotated _ refinements => refinements
  | _ => []

/-- The parts of a type expression that have shapes of their own. A mapping has none unless it has a
key and a value. -/
def explored : TypeExpr → List TypeExpr
  | annotated base _ => [base]
  | union _ members => alternatives members
  | applied head arguments =>
    if head.isMapping && arguments.length ≠ 2 then [] else arguments
  | _ => []

/-- Whether the bounds of the parts of a type expression belong to the field around. -/
def isTransparent : TypeExpr → Bool
  | annotated .. => true
  | union _ members => (alternatives members).length = 1
  | _ => false

/-- The declared class that is named, alone or with arguments, and has fields. -/
def entered? : TypeExpr → Option String
  | named (.declared name) | applied (.declared name) _ =>
    if name = "ObjectId" then .none else some name
  | _ => .none

def namesClass : TypeExpr → Bool
  | named (.declared _) | applied (.declared _) _ => true
  | _ => false

/-- The refinements of a type expression, of what it refines and of the one alternative of an
optional one, inner ones first. -/
def refinements : TypeExpr → List Refinement
  | annotated base refinements => base.refinements ++ refinements
  | union _ members =>
    match found : alternatives members with
    | [member] =>
      have : sizeOf member < sizeOf members :=
        List.sizeOf_lt_of_mem (mem_of_mem_alternatives (found ▸ List.mem_cons_self))
      member.refinements
    | _ => []
  | _ => []
termination_by expr => sizeOf expr

/-- Whether a type expression has no bound that is out of place but for those in classes, which are
some of those in a set. Inside a container no bound is in place. -/
inductive IsClear (classes : Set String) : (nested : Bool) → TypeExpr → Prop
  | intro {nested : Bool} {expr : TypeExpr}
    (bounds : nested → ∀ refinement ∈ expr.ownRefinements, ¬ refinement.GivesBound)
    (parts : ∀ part ∈ expr.explored, IsClear classes (nested || !expr.isTransparent) part)
    (entered : ∀ name ∈ expr.entered?, name ∈ classes) : IsClear classes nested expr

section IsClear

variable {classes more : Set String} {nested : Bool} {expr other part : TypeExpr}

theorem explored_subset_children (expr : TypeExpr) : expr.explored ⊆ expr.children := by
  cases expr with
  | applied head arguments =>
    rw [explored]
    split
    · exact List.nil_subset _
    · exact List.Subset.refl _
  | union style members => exact List.filter_subset_self _
  | annotated base refinements => exact List.Subset.refl _
  | _ => exact List.nil_subset _

theorem IsClear.mono (h : expr.IsClear classes nested) (hmore : classes ⊆ more) :
    expr.IsClear more nested := by
  induction h with
  | intro bounds _ entered ih => exact .intro bounds ih fun name hname => hmore (entered name hname)

/-- What may stand inside a container may stand anywhere. -/
theorem IsClear.outside (h : expr.IsClear classes true) : expr.IsClear classes nested := by
  induction expr using children_induction generalizing nested with
  | h expr ih =>
    obtain ⟨bounds, parts, entered⟩ := h
    refine .intro (fun _ => bounds rfl) (fun part hpart => ?_) entered
    exact ih part (explored_subset_children expr hpart) (parts part hpart)

theorem ownRefinements_subset (expr : TypeExpr) : expr.ownRefinements ⊆ expr.refinements := by
  cases expr with
  | annotated base refinements =>
    rw [TypeExpr.refinements]
    exact List.subset_append_right _ _
  | _ => exact List.nil_subset _

theorem refinements_of_alternatives {style : UnionStyle} {members : List TypeExpr}
    {member : TypeExpr} (hsole : alternatives members = [member]) :
    (union style members).refinements = member.refinements := by
  rw [refinements]
  split
  · next found =>
    rw [hsole] at found
    rw [List.head_eq_of_cons_eq found]
  · next hmany => exact absurd hsole (hmany member)

/-- The refinements of a part whose bounds belong to the field around are among those of the
whole. -/
theorem refinements_subset (htransparent : expr.isTransparent) (hpart : part ∈ expr.explored) :
    part.refinements ⊆ expr.refinements := by
  cases expr with
  | annotated base refinements =>
    rw [List.mem_singleton.mp hpart, TypeExpr.refinements]
    exact List.subset_append_left _ _
  | union style members =>
    obtain ⟨member, hsole⟩ := List.length_eq_one_iff.mp (of_decide_eq_true htransparent)
    have hpart : part ∈ alternatives members := hpart
    rw [hsole] at hpart
    rw [List.mem_singleton.mp hpart, refinements_of_alternatives hsole]
    exact List.Subset.refl _
  | _ => cases htransparent

theorem refinements_eq_nil (h : expr.isTransparent = false) : expr.refinements = [] := by
  cases expr with
  | annotated base refinements => cases h
  | union style members =>
    rw [refinements]
    split
    · next found =>
      have hmany := of_decide_eq_false h
      rw [found] at hmany
      exact absurd rfl hmany
    · rfl
  | _ => simp [refinements]

/-- A type expression whose refinements give no bound may stand inside a container. -/
theorem IsClear.inside (h : expr.IsClear classes false)
    (hbounds : ∀ refinement ∈ expr.refinements, ¬ refinement.GivesBound) :
    expr.IsClear classes true := by
  induction expr using children_induction with
  | h expr ih =>
    obtain ⟨_, parts, entered⟩ := h
    refine .intro (fun _ refinement hmem => hbounds refinement (ownRefinements_subset expr hmem))
      (fun part hpart => ?_) entered
    have houtside := parts part hpart
    cases htransparent : expr.isTransparent with
    | false => rwa [htransparent] at houtside
    | true =>
      rw [htransparent] at houtside
      exact ih part (explored_subset_children expr hpart) houtside fun refinement hmem =>
        hbounds refinement (refinements_subset htransparent hpart hmem)

theorem isTransparent_of_same (hsame : expr.same other) (hclass : other.namesClass) :
    expr.isTransparent = false := by
  cases expr with
  | union style members => cases other <;> first | simp [same] at hsame; done | cases hclass
  | annotated base refinements =>
    cases other <;> first | simp [same] at hsame; done | cases hclass
  | _ => rfl

theorem isNoneType_of_same (hsame : expr.same other) : expr.isNoneType = other.isNoneType := by
  cases expr with
  | named head =>
    cases other with
    | named given =>
      simp only [same, decide_eq_true_eq] at hsame
      rw [hsame]
    | _ => simp [same] at hsame
  | _ => cases other <;> first | rfl | simp [same] at hsame

theorem same_annotated_iff {refinements others : List Refinement} :
    (annotated expr refinements).same (annotated other others) ↔
      expr.same other ∧ List.Forall₂ (fun a b => a.same b) refinements others := by
  simp [same, List.forall₂_iff_zip, and_assoc]

theorem isClear_of_parts (hrefinements : expr.ownRefinements = [])
    (hentered : expr.entered? = .none)
    (hparts : ∀ part ∈ expr.explored, part.IsClear classes (nested || !expr.isTransparent)) :
    expr.IsClear classes nested := by
  refine .intro ?_ hparts ?_
  · simp [hrefinements]
  · simp [hentered]

theorem isClear_leaf (hrefinements : expr.ownRefinements = []) (hentered : expr.entered? = .none)
    (hparts : expr.explored = []) : expr.IsClear classes nested :=
  isClear_of_parts hrefinements hentered (hparts ▸ List.forall_mem_nil _)

theorem isClear_class {name : String} (hname : name ∈ classes) :
    (named (.declared name)).IsClear classes nested := by
  refine .intro (fun _ => List.forall_mem_nil _) (List.forall_mem_nil _) fun other hother => ?_
  rw [entered?] at hother
  split at hother
  · cases hother
  · cases hother
    exact hname

theorem isClear_of_origin {head : TypeHead} {container : StandardClass}
    (horigin : head.origin? = some container) : (named head).IsClear classes nested := by
  cases head with
  | standard container => exact isClear_leaf rfl rfl rfl
  | synonym container => exact isClear_leaf rfl rfl rfl
  | declared name => cases horigin

theorem entered?_applied (head : TypeHead) (arguments : List TypeExpr) :
    (applied head arguments).entered? = (named head).entered? := by
  cases head <;> rfl

/-- Arguments may stand in what has arguments if they may stand in a container. -/
theorem isClear_applied {head : TypeHead} {arguments : List TypeExpr}
    (harguments : ∀ argument ∈ arguments, argument.IsClear classes true)
    (hhead : (named head).IsClear classes nested) :
    (applied head arguments).IsClear classes nested := by
  obtain ⟨_, _, entered⟩ := hhead
  rw [← entered?_applied head arguments] at entered
  refine .intro (fun _ => List.forall_mem_nil _) (fun part hpart => ?_) entered
  rw [explored] at hpart
  split at hpart
  · cases hpart
  · exact (harguments part hpart).outside

theorem isClear_union {style : UnionStyle} {members : List TypeExpr}
    (hmembers : ∀ member ∈ alternatives members, member.IsClear classes true) :
    (union style members).IsClear classes nested :=
  isClear_of_parts rfl rfl fun part hpart => (hmembers part hpart).outside

theorem isClear_sole {style : UnionStyle} {members : List TypeExpr} {member : TypeExpr}
    (hsole : alternatives members = [member]) (hmember : member.IsClear classes nested) :
    (union style members).IsClear classes nested := by
  have htransparent : (union style members).isTransparent = true := by
    simp [isTransparent, hsole]
  refine isClear_of_parts rfl rfl fun part hpart => ?_
  have hpart : part ∈ alternatives members := hpart
  rw [hsole] at hpart
  rw [List.mem_singleton.mp hpart, htransparent, Bool.not_true, Bool.or_false]
  exact hmember

/-- A mapping without a key and a value has no parts. -/
theorem isClear_mapping {head : TypeHead} {arguments : List TypeExpr} (hmapping : head.isMapping)
    (hcount : ∀ key value, arguments ≠ [key, value]) (hhead : (named head).IsClear classes nested) :
    (applied head arguments).IsClear classes nested := by
  obtain ⟨_, _, entered⟩ := hhead
  rw [← entered?_applied head arguments] at entered
  have hlength : arguments.length ≠ 2 := by
    intro heq
    obtain ⟨key, value, rfl⟩ := List.length_eq_two.mp heq
    exact hcount key value rfl
  refine .intro (fun _ => List.forall_mem_nil _) (fun part hpart => ?_) entered
  simp [explored, hmapping, hlength] at hpart

/-- What is the same as what may stand inside a container may stand there as well. -/
theorem IsClear.of_same (h : other.IsClear classes true) (hsame : expr.same other) :
    expr.IsClear classes true := by
  induction expr using children_induction generalizing other with
  | h expr ih =>
    obtain ⟨bounds, parts, entered⟩ := h
    cases expr with
    | applied head arguments =>
      cases other with
      | applied given others =>
        simp only [same, Bool.and_eq_true, decide_eq_true_eq, sameAll_iff] at hsame
        obtain ⟨rfl, hsame⟩ := hsame
        rw [entered?_applied, ← entered?_applied head arguments] at entered
        refine .intro (fun _ => List.forall_mem_nil _) (fun part hpart => ?_) entered
        rw [explored] at hpart
        rw [explored, ← hsame.length_eq] at parts
        split at hpart
        · cases hpart
        · next hlooked =>
          rw [if_neg hlooked] at parts
          obtain ⟨argument, hargument, hsame⟩ := exists_mem_of_forall₂ hsame part hpart
          exact ih part hpart (parts argument hargument) hsame
      | _ => simp [same] at hsame
    | union style members =>
      cases other with
      | union given others =>
        simp only [same, Bool.and_eq_true, sameAmong_iff] at hsame
        refine isClear_of_parts rfl rfl fun part hpart => ?_
        obtain ⟨hpart, hnone⟩ := List.mem_filter.mp hpart
        obtain ⟨member, hmember, hsame⟩ := hsame.1 part hpart
        rw [isNoneType_of_same hsame] at hnone
        exact ih part hpart (parts member (List.mem_filter.mpr ⟨hmember, hnone⟩)) hsame
      | _ => simp [same] at hsame
    | annotated base refinements =>
      cases other with
      | annotated given others =>
        obtain ⟨hbase, hrefinements⟩ := same_annotated_iff.mp hsame
        refine .intro (fun _ refinement hmem hbound => ?_) (fun part hpart => ?_)
          fun _ h => absurd h (Option.not_mem_none _)
        · obtain ⟨other, hother, hbound⟩ := (exists_mem_iff_of_forall₂ hrefinements fun _ _ _ =>
            Refinement.givesBound_iff_of_same).mp ⟨refinement, hmem, hbound⟩
          exact bounds rfl other hother hbound
        · rw [List.mem_singleton.mp hpart]
          exact ih base (List.mem_singleton_self base)
            (parts given (List.mem_singleton_self given)) hbase
      | _ => simp [same] at hsame
    | named head =>
      cases other with
      | named given =>
        simp only [same, decide_eq_true_eq] at hsame
        exact .intro (fun _ => List.forall_mem_nil _) (List.forall_mem_nil _) (hsame ▸ entered)
      | _ => simp [same] at hsame
    | none | ellipsis | literal | parameter =>
      cases other <;> first | simp [same] at hsame; done | exact isClear_leaf rfl rfl rfl

end IsClear

theorem subset_ownRefinements_refine (base : TypeExpr) (refinements : List Refinement) :
    refinements ⊆ (base.refine refinements).ownRefinements := by
  cases base with
  | annotated inner earlier => exact List.subset_append_right _ _
  | _ => exact List.Subset.refl _

end TypeExpr

/-- An annotation that gives a bound still gives one when it has been evaluated. -/
theorem TypeTerm.keeps_bound (isDefined : String → Bool) (base : TypeTerm)
    {refinements : List Refinement} (h : ∃ refinement ∈ refinements, refinement.GivesBound) :
    Evaluation.Keeps (fun expr => ∃ refinement ∈ expr.ownRefinements, refinement.GivesBound)
      ((annotated base refinements).evaluate isDefined) := by
  obtain ⟨refinement, hmem, hbound⟩ := h
  rw [evaluate]
  refine (keeps_evaluate isDefined base).bind fun value _ => ?_
  refine (Evaluation.keeps_label refinements).bind fun labelled hlabelled => ?_
  refine (Evaluation.keeps_make _).imp fun result hresult => ?_
  obtain ⟨given, hmake, hgiven⟩ := hresult
  obtain ⟨index, hlabel⟩ := hlabelled refinement hmem
  have hgives : ∃ refinement ∈ labelled, refinement.GivesBound :=
    ⟨_, hlabel, by cases refinement <;> exact hbound⟩
  have hkept : ∀ base others, given = .annotated base others →
      ∃ refinement ∈ others, refinement.GivesBound := by
    rintro base others rfl
    rcases hgiven with heq | hsame
    · cases heq
      exact hgives
    · have hsame := (TypeExpr.same_annotated_iff.mp hsame).2
      exact (exists_mem_iff_of_forall₂ hsame fun _ _ _ =>
        Refinement.givesBound_iff_of_same).mpr hgives
  cases given with
  | annotated base others =>
    cases hmake
    obtain ⟨other, hother, hbound⟩ := hkept base others rfl
    exact ⟨other, TypeExpr.subset_ownRefinements_refine base others hother, hbound⟩
  | _ => rcases hgiven with heq | hsame <;> first | cases heq | cases hsame

namespace ClassTable

/-- Whether a bound is out of place in a type expression or in a class that it names: on an element,
a key or value, an alternative among others or an argument of an instance, however deep inside. A
field of a class counts if it is kept and has such a bound, whatever its annotation comes to. -/
inductive Misplaces (table : ClassTable) : (nested : Bool) → TypeExpr → Prop
  | bound {expr : TypeExpr} {refinement : Refinement} (own : refinement ∈ expr.ownRefinements)
    (given : refinement.GivesBound) : Misplaces table true expr
  | part {nested : Bool} {expr part : TypeExpr} (explored : part ∈ expr.explored)
    (inside : Misplaces table (nested || !expr.isTransparent) part) : Misplaces table nested expr
  | field {nested : Bool} {expr : TypeExpr} {name : String} {owner : ClassDeclaration}
    {field : ClassField} (entered : name ∈ expr.entered?) (found : table.find? name = some owner)
    (declared : field ∈ table.fieldsOf owner)
    (kept : ∀ values type, table.Annotates owner values → (field, type) ∈ values →
      owner.form.excludes field type = false)
    (inside : ∀ values type, table.Annotates owner values → (field, type) ∈ values →
      Misplaces table false (Reflect.splitRefinements owner.form type).1.asClass) :
    Misplaces table nested expr

/-- Whether no bound is out of place in the fields of a class that are not left out, but for those
in classes, which are some of those in a set. -/
def HasClearFields (table : ClassTable) (classes : Set String) (name : String) : Prop :=
  ∃ owner values, table.find? name = some owner ∧ table.Annotates owner values ∧
    ∀ value ∈ values, owner.form.excludes value.1 value.2 = false →
      (Reflect.splitRefinements owner.form value.2).1.asClass.IsClear classes false

variable {table : ClassTable} {classes more : Set String} {nested : Bool} {expr : TypeExpr}

theorem HasClearFields.mono {name : String} (h : table.HasClearFields classes name)
    (hmore : classes ⊆ more) : table.HasClearFields more name := by
  obtain ⟨owner, values, hfound, hvalues, hclear⟩ := h
  exact ⟨owner, values, hfound, hvalues, fun value hvalue hkept =>
    (hclear value hvalue hkept).mono hmore⟩

/-- No bound is out of place in a type expression that is clear but for classes that are clear but
for each other. -/
theorem not_misplaces (hclasses : ∀ name ∈ classes, table.HasClearFields classes name)
    (hclear : expr.IsClear classes nested) : ¬ table.Misplaces nested expr := by
  intro hmisplaces
  induction hmisplaces with
  | bound own given =>
    obtain ⟨bounds, _, _⟩ := hclear
    exact bounds rfl _ own given
  | part explored _ ih =>
    obtain ⟨_, parts, _⟩ := hclear
    exact ih (parts _ explored)
  | @field nested expr name owner field hentered hfound hdeclared hkept _ ih =>
    obtain ⟨_, _, entered⟩ := hclear
    obtain ⟨other, values, hother, hvalues, hfields⟩ := hclasses name (entered name hentered)
    cases hfound.symm.trans hother
    obtain ⟨before, after, hbefore, hrun⟩ := hvalues
    obtain ⟨_, hall, _⟩ := evaluateFields_eq_ok hbefore hrun
    rw [← hall] at hdeclared
    obtain ⟨⟨_, type⟩, hvalue, rfl⟩ := List.mem_map.mp hdeclared
    have hvalues : table.Annotates owner values := ⟨before, after, hbefore, hrun⟩
    exact ih values type hvalues hvalue
      (hfields _ hvalue (hkept values type hvalues hvalue))

end ClassTable
end ShapeSchema
