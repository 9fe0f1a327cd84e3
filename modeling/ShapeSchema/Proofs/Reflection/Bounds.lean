import Mathlib.Data.Set.Insert
import ShapeSchema.Proofs.Reflection.Fields
import ShapeSchema.Proofs.Reflection.Hashing
import ShapeSchema.Proofs.Reflection.Misplacement

/-!
Reflection drops no bound. What it finds for a type expression are all the constraints of its
refinements, and it fails where a bound is out of place. A class that is known may stand for itself
before its fields have been looked at, so nothing is said of a class alone: what is found has no
bound out of place but for those in known classes, and these are clear but for each other when the
last one that is being entered has been left.
-/

namespace ShapeSchema

namespace Reflect

/-- The classes of which a shape is known. -/
def knownClasses (known : List (TypeExpr × Shape)) : Set String :=
  {name | ∃ shape, (.named (.declared name), shape) ∈ known}

/-- Reflection without given shapes at some point: the classes that are being entered, and whether
all that is reflected can be looked up. -/
structure Scan where
  context : ReflectionContext
  registry_eq_nil : context.registry = []
  opened : Set String
  isHashable : Prop
  classes_isHashable : isHashable → context.classes.IsHashable

namespace Scan

def inside (scan : Scan) (name : String) : Scan :=
  { scan with opened := insert name scan.opened }

/-- What holds of the states of a reflection: only classes and instances are known, their arguments
have no bound, and the known classes that are not being entered have clear fields. -/
structure IsClean (scan : Scan) (state : ReflectionState) : Prop where
  reached : scan.context.classes.Reached state.evaluated
  known : ∀ entry ∈ state.known,
    entry.1.namesClass ∧ entry.1.IsClear (knownClasses state.known) true
  fields : ∀ name ∈ knownClasses state.known, name ∉ scan.opened →
    scan.context.classes.HasClearFields (knownClasses state.known) name

/-- Whether all runs of a step, from states in which at least some classes are known, keep what is
known if they succeed, with a result of which something holds. If they fail, the shape is an
unsupported one, as long as all can be looked up. -/
def Runs {α : Type} (scan : Scan) (classes : Set String) (P : Set String → α → Prop)
    (step : Reflect α) : Prop :=
  ∀ before, scan.IsClean before → classes ⊆ knownClasses before.known →
    (∀ a after, step.run before = .ok (a, after) → scan.IsClean after ∧
      knownClasses before.known ⊆ knownClasses after.known ∧ P (knownClasses after.known) a) ∧
    ∀ error, step.run before = .error error → scan.isHashable →
      error.defect.kind = .unsupportedShape

structure Finds (classes : Set String) (expr : TypeExpr) (found : Shape × Constraints) : Prop where
  clear : expr.IsClear classes false
  constraints : found.2 = Refinement.allConstraints expr.refinements

section Finds

variable {classes more : Set String} {expr : TypeExpr} {found : Shape × Constraints}

theorem Finds.mono (h : Finds classes expr found) (hmore : classes ⊆ more) :
    Finds more expr found :=
  ⟨h.clear.mono hmore, h.constraints⟩

/-- Without refinements around it, a type expression has no constraints. -/
theorem finds_of_isClear (hclear : expr.IsClear classes true) (hstops : expr.isTransparent = false)
    (shape : Shape) : Finds classes expr (shape, .none) where
  clear := hclear.outside
  constraints := by
    rw [TypeExpr.refinements_eq_nil hstops]
    rfl

end Finds

section Rules

variable {scan : Scan} {classes : Set String} {α β : Type} {P : Set String → α → Prop}
  {Q : Set String → β → Prop}

theorem Runs.pure {a : α} (h : ∀ later, classes ⊆ later → P later a) :
    scan.Runs classes P (Pure.pure a) := by
  refine fun before hclean hclasses => ⟨fun a' after hrun => ?_, fun _ h => by cases h⟩
  cases hrun
  exact ⟨hclean, Set.Subset.rfl, h _ hclasses⟩

theorem runs_fail {defect : Defect} (hdefect : scan.isHashable → defect.kind = .unsupportedShape) :
    scan.Runs classes P (fail defect) := by
  refine fun before _ _ => ⟨(fun _ _ h => by cases h), fun error hrun hhashable => ?_⟩
  cases hrun
  exact hdefect hhashable

theorem Runs.bind {step : Reflect α} {next : α → Reflect β} (hstep : scan.Runs classes P step)
    (hnext : ∀ a later, classes ⊆ later → P later a → scan.Runs later Q (next a)) :
    scan.Runs classes Q (step >>= next) := by
  intro before hclean hclasses
  obtain ⟨hok, herror⟩ := hstep before hclean hclasses
  cases hrun : step.run before with
  | error error =>
    have hstop : (step >>= next).run before = .error error := by
      rw [StateT.run_bind, hrun]
      rfl
    rw [hstop]
    refine ⟨(fun _ _ h => by cases h), fun other heq => ?_⟩
    cases heq
    exact herror error hrun
  | ok result =>
    obtain ⟨a, middle⟩ := result
    obtain ⟨hmiddle, hgrown, ha⟩ := hok a middle hrun
    rw [run_bind_of_eq_ok hrun]
    obtain ⟨hok, herror⟩ :=
      hnext a _ (hclasses.trans hgrown) ha middle hmiddle Set.Subset.rfl
    refine ⟨fun b after hrest => ?_, herror⟩
    obtain ⟨hafter, hlast, hb⟩ := hok b after hrest
    exact ⟨hafter, hgrown.trans hlast, hb⟩

theorem Runs.imp {R : Set String → α → Prop} {step : Reflect α} (hstep : scan.Runs classes P step)
    (himp : ∀ later a, classes ⊆ later → P later a → R later a) : scan.Runs classes R step := by
  intro before hclean hclasses
  obtain ⟨hok, herror⟩ := hstep before hclean hclasses
  refine ⟨fun a after hrun => ?_, herror⟩
  obtain ⟨hafter, hgrown, ha⟩ := hok a after hrun
  exact ⟨hafter, hgrown, himp _ a (hclasses.trans hgrown) ha⟩

/-- A step that looks at the graph only. -/
theorem runs_graph {step : Reflect α}
    (hstep : ∀ before, ∃ a graph, step.run before = .ok (a, { before with graph })) :
    scan.Runs classes (fun _ _ => True) step := by
  intro before hclean _
  obtain ⟨a, graph, hresult⟩ := hstep before
  rw [hresult]
  refine ⟨fun a' after hrun => ?_, fun _ h => by cases h⟩
  cases hrun
  exact ⟨⟨hclean.reached, hclean.known, hclean.fields⟩, Set.Subset.rfl, trivial⟩

end Rules

section Steps

variable {scan : Scan} {classes : Set String} {expr : TypeExpr} {shape : Shape}

theorem knownClasses_subset_cons (entry : TypeExpr × Shape) (known : List (TypeExpr × Shape)) :
    knownClasses known ⊆ knownClasses (entry :: known) :=
  fun _ ⟨shape, hmem⟩ => ⟨shape, List.mem_cons_of_mem _ hmem⟩

/-- A class that is being entered or an instance gets known. -/
theorem runs_record (hclass : expr.namesClass)
    (hclear : ∀ later, classes ⊆ later → (∀ name, expr = .named (.declared name) → name ∈ later) →
      expr.IsClear later true)
    (hopened : ∀ name, expr = .named (.declared name) → name ∈ scan.opened) :
    scan.Runs classes (fun later _ => ∀ name, expr = .named (.declared name) → name ∈ later)
      (record expr shape) := by
  refine fun before hclean hclasses => ⟨fun _ after hrun => ?_, fun _ h => by cases h⟩
  cases hrun
  have hsub := knownClasses_subset_cons (expr, shape) before.known
  have hself : ∀ name, expr = .named (.declared name) →
      name ∈ knownClasses ((expr, shape) :: before.known) := by
    rintro name rfl
    exact ⟨shape, List.mem_cons_self⟩
  refine ⟨⟨hclean.reached, List.forall_mem_cons.mpr ⟨⟨hclass, ?_⟩, fun entry hentry => ?_⟩,
    fun name hname hleft => ?_⟩, hsub, hself⟩
  · exact hclear _ (hclasses.trans hsub) hself
  · exact (hclean.known entry hentry).imp_right (·.mono hsub)
  · obtain ⟨other, hmem⟩ := hname
    rcases List.mem_cons.mp hmem with heq | hmem
    · exact absurd (hopened name (Prod.mk.inj heq).1.symm) hleft
    · exact (hclean.fields name ⟨other, hmem⟩ hleft).mono hsub

/-- A class is left when no bound is out of place in its fields. -/
theorem Runs.leave {α : Type} {P : Set String → α → Prop} (name : String) {step : Reflect α}
    (h : (scan.inside name).Runs classes
      (fun later a => scan.context.classes.HasClearFields later name ∧ P later a) step) :
    scan.Runs classes P step := by
  intro before hclean hclasses
  have hinside : (scan.inside name).IsClean before :=
    ⟨hclean.reached, hclean.known, fun other hother hleft =>
      hclean.fields other hother fun hmem => hleft (Set.mem_insert_of_mem name hmem)⟩
  obtain ⟨hok, herror⟩ := h before hinside hclasses
  refine ⟨fun a after hrun => ?_, herror⟩
  obtain ⟨hafter, hgrown, hname, ha⟩ := hok a after hrun
  refine ⟨⟨hafter.reached, hafter.known, fun other hother hleft => ?_⟩, hgrown, ha⟩
  by_cases heq : other = name
  · exact heq ▸ hname
  · exact hafter.fields other hother fun hmem => (Set.mem_insert_iff.mp hmem).elim heq hleft

/-- What is known is not looked at again. Nothing but classes and instances is. -/
theorem runs_remember {find : Reflect (Shape × Constraints)}
    (hfind : scan.Runs classes (Finds · expr) find) :
    scan.Runs classes (Finds · expr) (remember scan.context expr find) := by
  intro before hclean hclasses
  have hgiven : scan.context.registry.find? expr = none := by
    rw [scan.registry_eq_nil]
    rfl
  unfold remember
  simp only [StateT.run_bind, StateT.run_get, pure_bind, hgiven]
  cases hknown : lookup expr before.known with
  | none => exact hfind before hclean hclasses
  | some shape =>
    refine ⟨fun found after hrun => ?_, fun _ h => by cases h⟩
    cases hrun
    obtain ⟨other, hmem, hsame⟩ := Stage.exists_same_of_lookup hknown
    obtain ⟨hclass, hclear⟩ := hclean.known _ hmem
    exact ⟨hclean, Set.Subset.rfl, finds_of_isClear (hclear.of_same hsame)
      (TypeExpr.isTransparent_of_same hsame hclass) shape⟩

/-- Refinements add their constraints, also where a kind is among them. -/
theorem runs_refine (expr : TypeExpr) {c : Constraints} (refinements : List Refinement) :
    scan.Runs classes (fun _ found => found.2 =
        refinements.foldl (fun c refinement => c.merge refinement.addedConstraints) c)
      (refine expr shape c refinements) := by
  induction refinements generalizing shape c with
  | nil => exact .pure fun _ _ => rfl
  | cons refinement rest ih =>
    cases refinement with
    | kind kind =>
      cases shape with
      | primitive _ =>
        rw [List.foldl_cons, Refinement.addedConstraints, Constraints.merge_none]
        exact ih
      | _ => exact runs_fail fun _ => rfl
    | _ => exact ih

/-- What stands where no bounds may be gives none. -/
theorem runs_withoutBounds {found : Shape × Constraints} (hfound : Finds classes expr found) :
    scan.Runs classes (fun later _ => expr.IsClear later true) (withoutBounds expr found) := by
  unfold withoutBounds
  split
  · exact runs_fail fun _ => rfl
  · next hbounds =>
    refine .pure fun later hlater => (hfound.clear.mono hlater).inside fun refinement hmem hgiven =>
      hbounds ?_
    rw [hfound.constraints]
    exact Refinement.hasBounds_allConstraints hmem hgiven

theorem runs_makeVariant (name : String) :
    scan.Runs classes (fun _ _ => True) (makeVariant name shape) := by
  unfold makeVariant
  split
  · exact .pure fun _ _ => trivial
  · exact runs_fail fun _ => rfl

theorem runs_requireHashable (hexpr : scan.isHashable → expr.IsHashable) :
    scan.Runs classes (fun _ _ => True) (requireHashable expr) := by
  unfold requireHashable
  split
  · next type hfound =>
    exact runs_fail fun h => absurd (hfound.symm.trans (hexpr h)) (Option.some_ne_none type)
  · exact .pure fun _ _ => trivial

/-- The annotations of a class come to values that can be looked up if all can be. -/
theorem runs_evaluateFields (scan : Scan) {owner : ClassDeclaration}
    (howner : owner ∈ scan.context.classes) :
    scan.Runs classes
      (fun _ values => scan.context.classes.Annotates owner values ∧
        (scan.isHashable → ∀ value ∈ values, value.2.IsHashable))
      (evaluateFields scan.context owner) := by
  intro before hclean _
  obtain ⟨hok, herror⟩ :=
    ClassTable.hashes_evaluateFields howner before.evaluated hclean.reached.isHashable
  refine ⟨fun values after hrun => ?_, fun error hrun hhashable => ?_⟩
  · obtain ⟨evaluated, hvalues, rfl⟩ := Stage.run_evaluateFields_eq_ok hrun
    obtain ⟨hreached, _⟩ := ClassTable.evaluateFields_eq_ok hclean.reached hvalues
    exact ⟨⟨hreached, hclean.known, hclean.fields⟩, Set.Subset.rfl,
      ⟨_, _, hclean.reached, hvalues⟩, fun hhashable =>
        (hok values evaluated hvalues).2 (scan.classes_isHashable hhashable)⟩
  · unfold evaluateFields at hrun
    simp only [StateT.run_bind, StateT.run_get, pure_bind] at hrun
    split at hrun
    · cases hrun
    · next failure hfailure =>
      cases hrun
      cases failure with
      | undefinedName name => rfl
      | unhashable type =>
        exact absurd hfailure (herror (scan.classes_isHashable hhashable) type)

theorem runs_tryCatch {α : Type} {P : Set String → α → Prop} {step : Reflect α}
    {handler : SchemaError → Reflect α}
    (hthrows : ∀ error before, ∃ other, (handler error).run before = .error other ∧
      other.defect = error.defect)
    (h : scan.Runs classes P step) : scan.Runs classes P (tryCatch step handler) := by
  intro before hclean hclasses
  obtain ⟨hok, herror⟩ := h before hclean hclasses
  have hcaught : (tryCatch step handler).run before =
      tryCatch (step.run before) fun error => (handler error).run before := rfl
  rw [hcaught]
  cases hrun : step.run before with
  | ok result =>
    rw [hrun] at hok
    exact ⟨hok, fun _ h => by cases h⟩
  | error error =>
    obtain ⟨other, hother, hdefect⟩ := hthrows error before
    have hstop : (tryCatch (.error error) fun error => (handler error).run before) =
        (.error other : Except SchemaError (α × ReflectionState)) := hother
    rw [hstop]
    refine ⟨(fun _ _ h => by cases h), fun last heq => ?_⟩
    cases heq
    rw [hdefect]
    exact herror error hrun

end Steps

section Classes

variable {scan : Scan} {classes : Set String} {owner : ClassDeclaration}
  {resolve : TypeExpr → Reflect (Shape × Constraints)}

/-- Whether no bounds are lost where type expressions are resolved. -/
def Resolves (scan : Scan) (resolve : TypeExpr → Reflect (Shape × Constraints)) : Prop :=
  ∀ classes expr, (scan.isHashable → expr.IsHashable) →
    scan.Runs classes (Finds · expr) (resolve expr)

theorem isHashable_splitRefinements (form : ClassForm) {expr : TypeExpr} (h : expr.IsHashable) :
    (splitRefinements form expr).1.IsHashable := by
  unfold splitRefinements
  split
  · exact (TypeExpr.isHashable_annotated.mp h).1
  · exact h

/-- The type expression of a field that is kept is looked at. -/
theorem runs_addField (hresolve : scan.Resolves resolve) (owner : ClassDeclaration) (index : Nat)
    (field : ClassField) {expr : TypeExpr} (hexpr : scan.isHashable → expr.IsHashable) :
    scan.Runs classes
      (fun later _ => owner.form.excludes field expr = false →
        (splitRefinements owner.form expr).1.asClass.IsClear later false)
      (addField owner index resolve field expr) := by
  unfold addField
  dsimp only
  split
  · refine (runs_tryCatch ?_ (hresolve classes _ fun hhashable => ?_)).bind
      fun found later _ hfound => ?_
    · intro error before
      split <;> exact ⟨_, rfl, rfl⟩
    · exact TypeExpr.isHashable_asClass.mpr (isHashable_splitRefinements _ (hexpr hhashable))
    · exact (runs_graph fun _ => ⟨_, _, rfl⟩).imp fun last _ hlast _ _ =>
        hfound.clear.mono hlast
  · next hleft =>
    have hexcluded : owner.form.excludes field expr = true := by
      simpa [ClassForm.excludes] using hleft
    exact .pure fun _ _ hkept => absurd (hkept.symm.trans hexcluded) Bool.false_ne_true

theorem runs_addFields (hresolve : scan.Resolves resolve) (owner : ClassDeclaration) (index : Nat)
    {values : List (ClassField × TypeExpr)}
    (hvalues : scan.isHashable → ∀ value ∈ values, value.2.IsHashable) :
    scan.Runs classes
      (fun later _ => ∀ value ∈ values, owner.form.excludes value.1 value.2 = false →
        (splitRefinements owner.form value.2).1.asClass.IsClear later false)
      (forIn values PUnit.unit fun value _ => do
        addField owner index resolve value.1 value.2
        pure (ForInStep.yield PUnit.unit)) := by
  induction values generalizing classes with
  | nil => exact .pure fun _ _ => List.forall_mem_nil _
  | cons value rest ih =>
    rw [List.forIn_cons]
    simp only [bind_assoc, pure_bind]
    refine (runs_addField hresolve owner index value.1 fun hhashable =>
      (List.forall_mem_cons.mp (hvalues hhashable)).1).bind fun _ later _ hfirst => ?_
    refine (ih fun hhashable => (List.forall_mem_cons.mp (hvalues hhashable)).2).imp
      fun last _ hlast hrest => List.forall_mem_cons.mpr ⟨fun hkept => ?_, hrest⟩
    exact (hfirst hkept).mono hlast

/-- A class is known before its fields are looked at, and they are when it is left. -/
theorem runs_openClass {name : String} (hfound : scan.context.classes.find? name = some owner)
    (hresolve : (scan.inside name).Resolves resolve) :
    scan.Runs classes (fun later _ => name ∈ later) (openClass scan.context owner resolve) := by
  have hname : owner.name = name := by simpa using List.find?_some hfound
  subst hname
  have howner := ClassTable.mem_of_find?_eq_some hfound
  unfold openClass
  extract_lets extra
  refine Runs.leave owner.name ?_
  refine (runs_graph fun before => ⟨_, _, rfl⟩).bind fun index first _ _ => ?_
  have hrecord : (scan.inside owner.name).Runs first (fun later _ => owner.name ∈ later)
      (record (.named (.declared owner.name)) (.declared index)) := by
    refine (runs_record rfl (fun later _ hself => ?_) fun other heq => ?_).imp
      fun later _ _ hself => hself owner.name rfl
    · exact TypeExpr.isClear_class (hself owner.name rfl)
    · cases heq
      exact Set.mem_insert _ _
  refine hrecord.bind fun _ second _ hsecond => ?_
  refine (runs_evaluateFields (scan.inside owner.name) howner).bind
    fun values third hthird hvalues => ?_
  refine (runs_addFields hresolve owner index hvalues.2).bind fun _ last hlast hfields => ?_
  refine .pure fun later hlater => ⟨?_, hlater (hlast (hthird hsecond))⟩
  exact ⟨owner, values, hfound, hvalues.1, fun value hvalue hkept =>
    (hfields value hvalue hkept).mono hlater⟩

end Classes

section Types

variable {scan : Scan} {classes : Set String} {enter : ClassDeclaration → Reflect Shape}
  {expr : TypeExpr}

def Enters (scan : Scan) (enter : ClassDeclaration → Reflect Shape) : Prop :=
  ∀ classes name owner, scan.context.classes.find? name = some owner →
    scan.Runs classes (fun later _ => name ∈ later) (enter owner)

def Explores (scan : Scan) (enter : ClassDeclaration → Reflect Shape) (expr : TypeExpr) : Prop :=
  ∀ classes, scan.Runs classes (Finds · expr) (resolveWith scan.context substitute enter expr)

theorem runs_resolvePlain (h : scan.Explores enter expr) :
    scan.Runs classes (fun later _ => expr.IsClear later true)
      (resolvePlain scan.context substitute enter expr) := by
  rw [resolvePlain]
  exact (h classes).bind fun found later _ hfound => runs_withoutBounds hfound

theorem runs_resolveAll {exprs : List TypeExpr} (h : ∀ expr ∈ exprs, scan.Explores enter expr) :
    scan.Runs classes (fun later _ => ∀ expr ∈ exprs, expr.IsClear later true)
      (resolveAll scan.context substitute enter exprs) := by
  induction exprs generalizing classes with
  | nil =>
    rw [resolveAll]
    exact .pure fun _ _ => List.forall_mem_nil _
  | cons expr rest ih =>
    obtain ⟨hexpr, hrest⟩ := List.forall_mem_cons.mp h
    rw [resolveAll]
    refine (runs_resolvePlain hexpr).bind fun shape later _ hclear => ?_
    refine (ih hrest).bind fun shapes last hlast hclears => .pure fun final hfinal => ?_
    exact List.forall_mem_cons.mpr ⟨hclear.mono (hlast.trans hfinal), fun other hother =>
      (hclears other hother).mono hfinal⟩

theorem runs_resolveVariants {members : List TypeExpr} {position : Nat} {used : List String}
    (h : ∀ member ∈ members, scan.Explores enter member) :
    scan.Runs classes
      (fun later _ => ∀ member ∈ TypeExpr.alternatives members, member.IsClear later true)
      (resolveVariants scan.context substitute enter members position used) := by
  induction members generalizing classes position used with
  | nil =>
    rw [resolveVariants]
    exact .pure fun _ _ => List.forall_mem_nil _
  | cons member rest ih =>
    obtain ⟨hmember, hrest⟩ := List.forall_mem_cons.mp h
    rw [resolveVariants]
    split
    · next hnone =>
      have halternatives : TypeExpr.alternatives (member :: rest) = TypeExpr.alternatives rest :=
        List.filter_cons_of_neg (by simpa using hnone)
      rw [halternatives]
      exact ih hrest
    · next hsome =>
      have halternatives : TypeExpr.alternatives (member :: rest) =
          member :: TypeExpr.alternatives rest := List.filter_cons_of_pos (by simpa using hsome)
      rw [halternatives]
      refine (runs_resolvePlain hmember).bind fun shape first _ hclear => ?_
      refine (runs_makeVariant _).bind fun variant second hsecond _ => ?_
      refine (ih hrest).bind fun variants last hlast hclears => .pure fun final hfinal => ?_
      exact List.forall_mem_cons.mpr ⟨hclear.mono ((hsecond.trans hlast).trans hfinal),
        fun other hother => (hclears other hother).mono hfinal⟩

/-- A name alone gives no bound, and a class that it stands for is known. -/
theorem runs_resolveNamed (henter : scan.Enters enter) (head : TypeHead) :
    scan.Runs classes (fun later _ => (TypeExpr.named head).IsClear later true)
      (resolveNamed scan.context enter head) := by
  unfold resolveNamed
  split
  · exact runs_fail fun _ => rfl
  · exact .pure fun _ _ => TypeExpr.isClear_of_origin rfl
  · exact .pure fun _ _ => TypeExpr.isClear_of_origin rfl
  · exact (runs_graph fun before => ⟨_, _, rfl⟩).bind fun _ _ _ _ => .pure fun _ _ =>
      TypeExpr.isClear_of_origin rfl
  · exact runs_fail fun _ => rfl
  · split
    · exact .pure fun _ _ => TypeExpr.isClear_of_origin rfl
    · exact runs_fail fun _ => rfl
  · split
    · next hname =>
      refine .pure fun _ _ => TypeExpr.isClear_leaf rfl ?_ rfl
      rw [TypeExpr.entered?, if_pos hname]
    · split
      · next owner hfound =>
        split
        · exact runs_fail fun _ => rfl
        all_goals exact (henter classes _ owner hfound).imp fun _ _ _ => TypeExpr.isClear_class
      · exact runs_fail fun _ => rfl

/-- A container of one kind of elements. -/
theorem runs_container {element : TypeExpr} {make : Nat → Shape → Shape}
    (h : scan.Explores enter element) :
    scan.Runs classes (fun later _ => element.IsClear later true)
      (resolvePlain scan.context substitute enter element >>= fun shape =>
        wrap (make · shape)) :=
  (runs_resolvePlain h).bind fun _ _ _ hclear =>
    (runs_graph fun _ => ⟨_, _, rfl⟩).imp fun _ _ hlast _ => hclear.mono hlast

/-- An instance of a class has arguments without bounds, and its class is known. -/
theorem runs_instance {name : String} {arguments : List TypeExpr} {parameters : List String}
    (henter : scan.Enters enter) (h : ∀ argument ∈ arguments, scan.Explores enter argument) :
    scan.Runs classes
      (fun later _ => (TypeExpr.applied (.declared name) arguments).IsClear later true)
      (do
        let (generic, _) ← remember scan.context (.named (.declared name)) do
          return (← resolveNamed scan.context enter (.declared name), .none)
        let shapes ← resolveAll scan.context substitute enter arguments
        let shape ← substitute (parameters.zip shapes) generic
        record (.applied (.declared name) arguments) shape
        return shape) := by
  have hgeneric : scan.Runs classes (Finds · (.named (.declared name)))
      (do return (← resolveNamed scan.context enter (.declared name), .none)) := by
    exact (runs_resolveNamed henter (.declared name)).bind fun shape later _ hclear =>
      .pure fun last hlast => finds_of_isClear (hclear.mono hlast) rfl shape
  refine (runs_remember hgeneric).bind fun found first _ hfound => ?_
  refine (runs_resolveAll h).bind fun shapes second hsecond hclears => ?_
  refine (runs_graph fun _ => ⟨_, _, rfl⟩).bind fun shape third hthird _ => ?_
  have hclear : ∀ later, third ⊆ later →
      (TypeExpr.applied (.declared name) arguments).IsClear later true := by
    intro later hlater
    refine TypeExpr.isClear_applied (fun argument hargument => ?_) ?_
    · exact (hclears argument hargument).mono (hthird.trans hlater)
    · obtain ⟨_, _, entered⟩ := hfound.clear
      exact .intro (fun _ => List.forall_mem_nil _) (List.forall_mem_nil _) fun other hother =>
        hlater (hthird (hsecond (entered other hother)))
  refine (runs_record rfl (fun later hlater _ => hclear later hlater) fun _ h => by cases h).bind
    fun _ last hlast _ => .pure fun final hfinal => hclear final (hlast.trans hfinal)

theorem runs_resolveApplied (henter : scan.Enters enter) {head : TypeHead}
    {arguments : List TypeExpr} (h : ∀ argument ∈ arguments, scan.Explores enter argument) :
    scan.Runs classes (fun later _ => (TypeExpr.applied head arguments).IsClear later true)
      (resolveApplied scan.context substitute enter head arguments) := by
  rw [resolveApplied.eq_def]
  split
  case h_1 | h_2 | h_3 | h_4 | h_5 | h_6 | h_7 =>
    have hhead {later : Set String} : (TypeExpr.named head).IsClear later true :=
      TypeExpr.isClear_of_origin (by assumption)
    split
    · exact (runs_container (h _ List.mem_cons_self)).imp fun _ _ _ hclear =>
        TypeExpr.isClear_applied (List.forall_mem_singleton.mpr hclear) hhead
    · exact runs_fail fun _ => rfl
  case h_8 =>
    have hhead {later : Set String} : (TypeExpr.named head).IsClear later true :=
      TypeExpr.isClear_of_origin (by assumption)
    refine (runs_container (h _ List.mem_cons_self)).imp fun _ _ _ hclear => ?_
    refine TypeExpr.isClear_applied (List.forall_mem_cons.mpr ⟨hclear, ?_⟩) hhead
    exact List.forall_mem_singleton.mpr (TypeExpr.isClear_leaf rfl rfl rfl)
  case h_9 =>
    have hhead {later : Set String} : (TypeExpr.named head).IsClear later true :=
      TypeExpr.isClear_of_origin (by assumption)
    refine (runs_resolveAll h).bind fun shapes later _ hclears => ?_
    refine (runs_graph fun before => ⟨_, _, rfl⟩).bind fun index last hlast _ => .pure
      fun final hfinal => TypeExpr.isClear_applied (fun argument hargument => ?_) hhead
    exact (hclears argument hargument).mono (hlast.trans hfinal)
  case h_10 | h_11 | h_12 =>
    have hhead {later : Set String} : (TypeExpr.named head).IsClear later true :=
      TypeExpr.isClear_of_origin (by assumption)
    split
    · next key value =>
      have hvalue : value ∈ [key, value] := List.mem_cons_of_mem _ List.mem_cons_self
      have hboth {later : Set String} (hkey : key.IsClear later true)
          (hvalue : value.IsClear later true) :
          (TypeExpr.applied head [key, value]).IsClear later true :=
        TypeExpr.isClear_applied (List.forall_mem_cons.mpr
          ⟨hkey, List.forall_mem_singleton.mpr hvalue⟩) hhead
      refine (runs_resolvePlain (h key List.mem_cons_self)).bind fun found later _ hkey => ?_
      split
      · split
        · have hany {last : Set String} :
              (TypeExpr.named (.standard .any)).IsClear last true :=
            TypeExpr.isClear_of_origin rfl
          split
          · exact .pure fun last hlast => hboth (hkey.mono hlast) hany
          · exact (runs_graph fun _ => ⟨_, _, rfl⟩).imp fun last _ hlast _ =>
              hboth (hkey.mono hlast) hany
        · exact (runs_container (h value hvalue)).imp fun last _ hlast hvalue =>
            hboth (hkey.mono hlast) hvalue
      · exact runs_fail fun _ => rfl
    · next hcount =>
      have hmapping : head.isMapping := by simp [TypeHead.isMapping, *]
      exact .pure fun _ _ => TypeExpr.isClear_mapping hmapping hcount hhead
  split
  · split
    · extract_lets rest
      split
      · exact Runs.bind (P := fun _ _ => False) (runs_fail fun _ => rfl) fun _ _ _ h => h.elim
      · exact runs_instance henter h
    · exact runs_fail fun _ => rfl
  · exact runs_fail fun _ => rfl

end Types

/-- No bounds are lost in type expressions if classes are known when they have been entered. -/
theorem resolves_of_enters {scan : Scan} {enter : ClassDeclaration → Reflect Shape}
    (henter : scan.Enters enter) :
    scan.Resolves (resolveWith scan.context substitute enter) := by
  intro classes expr
  induction expr using TypeExpr.children_induction generalizing classes with
  | h expr ih =>
    intro hexpr
    have hparts : ∀ part ∈ expr.children, scan.Explores enter part := fun part hpart classes =>
      ih part hpart classes fun hhashable => (hexpr hhashable).child hpart
    rw [resolveWith.eq_def]
    cases expr with
    | annotated base refinements =>
      refine (hparts base (List.mem_singleton_self base) classes).bind
        fun found later _ hfound => ?_
      refine (runs_refine _ refinements).imp fun last given hlast hgiven => ⟨?_, ?_⟩
      · refine .intro (fun h => absurd h Bool.false_ne_true) (fun part hpart => ?_)
          fun _ h => absurd h (Option.not_mem_none _)
        rw [List.mem_singleton.mp hpart]
        exact hfound.clear.mono hlast
      · rw [hgiven, hfound.constraints, TypeExpr.refinements, Refinement.allConstraints_append]
    | union style members =>
      refine runs_remember ?_
      extract_lets nullable finish
      -- Both ways end alike: with none among the members, the shape is optional.
      have hfinish : ∀ found later, Finds later (.union style members) found →
          scan.Runs later (Finds · (.union style members)) (finish found) := by
        rintro ⟨inner, c⟩ later hfound
        unfold finish
        dsimp only
        split
        · refine (runs_graph fun _ => ⟨_, _, rfl⟩).bind fun _ last hlast _ => .pure
            fun final hfinal => ⟨hfound.clear.mono (hlast.trans hfinal), hfound.constraints⟩
        · exact .pure fun _ hlast => hfound.mono hlast
      split
      · next member hsole =>
        have hmember : member ∈ members := (List.mem_filter.mp (hsole ▸ List.mem_cons_self)).1
        refine (hparts member hmember classes).bind fun found later _ hfound =>
          hfinish found later ⟨TypeExpr.isClear_sole hsole hfound.clear, ?_⟩
        rw [hfound.constraints, TypeExpr.refinements_of_alternatives hsole]
      · next hmany =>
        refine (runs_resolveVariants hparts).bind fun variants first _ hclears => ?_
        have hstops : (TypeExpr.union style members).isTransparent = false := by
          refine decide_eq_false fun hlength => ?_
          obtain ⟨member, hsole⟩ := List.length_eq_one_iff.mp hlength
          exact hmany member hsole
        refine (runs_graph fun _ => ⟨_, _, rfl⟩).bind fun index later hlater _ =>
          hfinish _ later (finds_of_isClear ?_ hstops (.declared index))
        exact TypeExpr.isClear_union fun member hmem => (hclears member hmem).mono hlater
    | named head =>
      exact runs_remember ((runs_resolveNamed henter head).bind fun shape later _ hclear =>
        .pure fun last hlast => finds_of_isClear (hclear.mono hlast) rfl shape)
    | applied head arguments =>
      refine runs_remember ((runs_requireHashable hexpr).bind fun _ first _ _ => ?_)
      exact (runs_resolveApplied henter hparts).bind fun shape later _ hclear =>
        .pure fun last hlast => finds_of_isClear (hclear.mono hlast) rfl shape
    | parameter name =>
      exact runs_remember ((runs_graph fun _ => ⟨_, _, rfl⟩).bind fun shape later _ _ =>
        .pure fun last _ => finds_of_isClear (TypeExpr.isClear_leaf rfl rfl rfl) rfl shape)
    | literal values =>
      exact runs_remember ((runs_requireHashable hexpr).bind fun _ _ _ _ => runs_fail fun _ => rfl)
    | none | ellipsis => exact runs_remember (runs_fail fun _ => rfl)

theorem resolves_resolveBelow (scan : Scan) {beyond : ClassDeclaration → Reflect Shape}
    (hbeyond : ∀ scan : Scan, scan.Enters beyond) (depth : Nat) :
    scan.Resolves (resolveBelow scan.context substitute beyond depth) := by
  induction depth generalizing scan with
  | zero => exact resolves_of_enters (hbeyond scan)
  | succ depth ih =>
    exact resolves_of_enters fun classes name owner hfound =>
      runs_openClass hfound (ih (scan.inside name))

end Scan
end Reflect

/-- Bounds are not dropped. What is found for a type expression are the constraints of its
refinements, and where a bound is out of place there is no shape, which is said unless something
cannot be looked up. -/
theorem ReflectionContext.reflect_bounds {context : ReflectionContext}
    (hregistry : context.registry = []) {start : Evaluated}
    (hstart : context.classes.Reached start) (graph : Graph) (expr : TypeExpr) :
    (∀ found after, context.reflect start graph expr = .ok (found, after) →
      found.2 = Refinement.allConstraints expr.refinements) ∧
    (context.classes.Misplaces false expr →
      ∃ error, context.reflect start graph expr = .error error ∧
        (expr.IsHashable → context.classes.IsHashable →
          error.defect.kind = .unsupportedShape)) := by
  let scan : Reflect.Scan :=
    ⟨context, hregistry, ∅, expr.IsHashable ∧ context.classes.IsHashable, fun h => h.2⟩
  have hresolves : scan.Resolves (Reflect.resolve context context.classes.length) :=
    Reflect.Scan.resolves_resolveBelow scan
      (fun _ _ _ _ _ => Reflect.Scan.runs_fail fun _ => rfl) _
  have hclean : scan.IsClean ⟨graph, [], start⟩ := by
    refine ⟨hstart, List.forall_mem_nil _, ?_⟩
    rintro name ⟨shape, hmem⟩
    cases hmem
  obtain ⟨hok, herror⟩ := hresolves ∅ expr (fun h => h.1) _ hclean (Set.empty_subset _)
  unfold reflect
  cases hrun : (Reflect.resolve context context.classes.length expr).run ⟨graph, [], start⟩ with
  | error error =>
    refine ⟨(fun _ _ h => by cases h), fun _ => ⟨error, rfl, fun hexpr hclasses => ?_⟩⟩
    exact herror error hrun ⟨hexpr, hclasses⟩
  | ok result =>
    obtain ⟨found, state⟩ := result
    obtain ⟨hafter, _, hfound⟩ := hok found state hrun
    refine ⟨fun given after heq => ?_, fun hmisplaces => ?_⟩
    · cases heq
      exact hfound.constraints
    · have hfields := fun name hname => hafter.fields name hname (Set.notMem_empty name)
      exact absurd hmisplaces (ClassTable.not_misplaces hfields hfound.clear)

def boxClass : ClassDeclaration :=
  ⟨"Box", none, .record [],
    [⟨"numbers", .applied (.standard .list)
      [.annotated (.named (.standard .int)) [.ge (.num (.int 0))]], .none, .nothing, by decide⟩]⟩

/-- Whatever else has been evaluated, the bound of the numbers in a box is out of place. -/
theorem misplaces_boxClass :
    ClassTable.Misplaces [boxClass] false (.named (.declared "Box")) := by
  let IsBounded (expr : TypeExpr) : Prop := ∃ part, expr = .applied (.standard .list) [part] ∧
    ∃ refinement ∈ part.ownRefinements, refinement.GivesBound
  have hgives : ∃ refinement ∈ [Refinement.ge (.num (.int 0))], refinement.GivesBound :=
    ⟨_, List.mem_singleton_self _, some (.num (.int 0)), List.mem_cons_self, by simp⟩
  have hterm (isDefined : String → Bool) : Evaluation.Keeps IsBounded
      (TypeTerm.evaluate isDefined (.applied (.standard .list)
        [.annotated (.named (.standard .int)) [.ge (.num (.int 0))]])) := by
    rw [TypeTerm.evaluate, TypeTerm.evaluateAll, TypeTerm.evaluateAll]
    refine (Evaluation.keeps_lookUp isDefined _).bind ?_
    rintro _ rfl
    simp only [bind_assoc, pure_bind]
    exact (TypeTerm.keeps_bound isDefined _ hgives).bind fun part hpart => .pure ⟨part, rfl, hpart⟩
  have hvalues : Evaluation.Keeps (fun values => ∀ value ∈ values, IsBounded value.2)
      (ClassTable.evaluateFields [boxClass] boxClass) := by
    change Evaluation.Keeps _ (List.mapM _ [_] >>= _)
    simp only [List.mapM_cons, List.mapM_nil, bind_assoc, pure_bind]
    exact (hterm _).bind fun expr hexpr => .pure (List.forall_mem_singleton.mpr hexpr)
  refine .field (show "Box" ∈ some "Box" from rfl) rfl (List.mem_singleton_self _)
    (fun _ _ _ _ => rfl) ?_
  rintro values type ⟨before, after, hbefore, hrun⟩ hvalue
  obtain ⟨_, hbounded⟩ := hvalues before hbefore.isSound values after hrun
  obtain ⟨part, rfl, refinement, hmem, hbound⟩ := hbounded _ hvalue
  exact .part (List.mem_singleton_self part) (.bound hmem hbound)

/-- A number below nine or none, where the number is at least one and by a later bound at least
two. -/
def boundedCount : TypeExpr :=
  .annotated (.union .named
      [.annotated (.named (.standard .int)) [.ge (.num (.int 1)), .lt (.num (.int 9))], .noneType])
    [.ge (.num (.int 2))]

theorem reflect_bounds_box :
    (∃ found after, ReflectionContext.reflect ⟨[boxClass], [], .i64⟩ .nothing .empty boundedCount =
        .ok (found, after) ∧
      found.2 = ⟨some (.num (.int 2)), none, none, some (.num (.int 9)), none⟩) ∧
    ∃ error, ReflectionContext.reflect ⟨[boxClass], [], .i64⟩ .nothing .empty
        (.named (.declared "Box")) = .error error ∧ error.defect.kind = .unsupportedShape := by
  have hstart : ClassTable.Reached [boxClass] .nothing := ClassTable.reached_evaluateModels rfl
  constructor
  · have hrun : ReflectionContext.reflect ⟨[boxClass], [], .i64⟩ .nothing .empty boundedCount =
        .ok ((.optional 0 (.primitive .i64),
          ⟨some (.num (.int 2)), none, none, some (.num (.int 9)), none⟩), ⟨#[], 1⟩) := by
      cbv
    have hrefinements : Refinement.allConstraints boundedCount.refinements =
        ⟨some (.num (.int 2)), none, none, some (.num (.int 9)), none⟩ := by
      cbv
    exact ⟨_, _, hrun,
      ((ReflectionContext.reflect_bounds rfl hstart .empty boundedCount).1 _ _ hrun).trans
        hrefinements⟩
  · obtain ⟨error, herror, hkind⟩ :=
      (@ReflectionContext.reflect_bounds ⟨[boxClass], [], .i64⟩ rfl .nothing hstart .empty
        (.named (.declared "Box"))).2 misplaces_boxClass
    refine ⟨error, herror, hkind rfl ?_⟩
    simp [ClassTable.IsHashable, boxClass, TypeTerm.IsHashable, Refinement.unhashable?,
      Json.unhashable?, Json.isScalar]

def listedNumbers : TypeExpr :=
  .applied (.standard .list)
    [.annotated (.named (.standard .int)) [.ge (.num (.int 0)), .other (.arr [])]]

/-- A bound inside a list is not refused for what it is if it stands beside what cannot be looked
up. -/
theorem reflect_bounds_listed :
    ClassTable.Misplaces [] false listedNumbers ∧
      ReflectionContext.reflect ⟨[], [], .i64⟩ .nothing .empty listedNumbers =
        .error ⟨.unhashable "list", .nowhere⟩ ∧
      (Defect.unhashable "list").kind ≠ .unsupportedShape := by
  refine ⟨?_, ?_, by decide⟩
  · refine .part (List.mem_singleton_self _) (.bound (List.mem_cons_self) ?_)
    exact ⟨some (.num (.int 0)), List.mem_cons_self, by simp⟩
  · cbv

end ShapeSchema
