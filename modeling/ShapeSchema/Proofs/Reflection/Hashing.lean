import ShapeSchema.Proofs.Reflection.Annotation

/-!
Type expressions that can be looked up among others: no value in them is a container. Terms of this
kind are evaluated to type expressions of this kind, and no evaluation of them fails for that
reason; what is handed out again always is of this kind, since nothing else is kept.
-/

namespace ShapeSchema

/-- Whether no refinement and no choice in a term has a value that cannot be looked up. -/
def TypeTerm.IsHashable : TypeTerm → Prop
  | .applied _ arguments => ∀ argument ∈ arguments, argument.IsHashable
  | .optional inner => inner.IsHashable
  | .union members | .bars members => ∀ member ∈ members, member.IsHashable
  | .literal values => ∀ value ∈ values, value.unhashable? = .none
  | .annotated base refinements =>
    base.IsHashable ∧ ∀ refinement ∈ refinements, refinement.unhashable? = .none
  | .none | .ellipsis | .named _ | .parameter _ => True
termination_by term => sizeOf term

namespace TypeExpr

/-- Whether a type expression can be looked up among others. -/
def IsHashable (expr : TypeExpr) : Prop :=
  expr.unhashable? = .none

attribute [local simp] unhashable? unhashableAmong?

theorem orElse_eq_none {α : Type} {x y : Option α} : (x <|> y) = .none ↔ x = .none ∧ y = .none := by
  cases x <;> simp

theorem unhashableAmong?_eq_none {exprs : List TypeExpr} :
    unhashableAmong? exprs = .none ↔ ∀ expr ∈ exprs, expr.IsHashable := by
  induction exprs with
  | nil => simp
  | cons expr rest ih => rw [unhashableAmong?, orElse_eq_none, ih, List.forall_mem_cons, IsHashable]

theorem isHashable_applied {head : TypeHead} {arguments : List TypeExpr} :
    (applied head arguments).IsHashable ↔ ∀ argument ∈ arguments, argument.IsHashable := by
  rw [IsHashable, unhashable?, unhashableAmong?_eq_none]

theorem isHashable_union {style : UnionStyle} {members : List TypeExpr} :
    (union style members).IsHashable ↔ ∀ member ∈ members, member.IsHashable := by
  rw [IsHashable, unhashable?, unhashableAmong?_eq_none]

theorem isHashable_annotated {base : TypeExpr} {refinements : List Refinement} :
    (annotated base refinements).IsHashable ↔
      base.IsHashable ∧ ∀ refinement ∈ refinements, refinement.unhashable? = .none := by
  rw [IsHashable, unhashable?, orElse_eq_none, List.findSome?_eq_none_iff, IsHashable]

theorem isHashable_asClass {expr : TypeExpr} : expr.asClass.IsHashable ↔ expr.IsHashable := by
  cases expr with
  | none => simp [asClass, noneType, IsHashable]
  | _ => exact Iff.rfl

theorem IsHashable.child {expr part : TypeExpr} (h : expr.IsHashable)
    (hpart : part ∈ expr.children) : part.IsHashable := by
  cases expr with
  | applied head arguments => exact isHashable_applied.mp h part hpart
  | union style members => exact isHashable_union.mp h part hpart
  | annotated base refinements =>
    rw [List.mem_singleton.mp hpart]
    exact (isHashable_annotated.mp h).1
  | _ => cases hpart

theorem isHashable_applyTo {head : TypeHead} {arguments : List TypeExpr}
    (h : ∀ argument ∈ arguments, argument.IsHashable) : (applyTo head arguments).IsHashable := by
  have hclasses : ∀ argument ∈ arguments.map asClass, argument.IsHashable := by
    intro argument hmem
    obtain ⟨given, hgiven, rfl⟩ := List.mem_map.mp hmem
    exact isHashable_asClass.mpr (h given hgiven)
  cases head with
  | standard container => exact isHashable_applied.mpr h
  | synonym container => exact isHashable_applied.mpr hclasses
  | declared name => exact isHashable_applied.mpr hclasses

theorem isHashable_refine {base : TypeExpr} {refinements : List Refinement}
    (h : (annotated base refinements).IsHashable) : (base.refine refinements).IsHashable := by
  obtain ⟨hbase, hrefinements⟩ := isHashable_annotated.mp h
  cases base with
  | annotated inner earlier =>
    obtain ⟨hinner, hearlier⟩ := isHashable_annotated.mp hbase
    exact isHashable_annotated.mpr ⟨hinner, List.forall_mem_append.mpr ⟨hearlier, hrefinements⟩⟩
  | _ => exact isHashable_annotated.mpr ⟨isHashable_asClass.mpr hbase, hrefinements⟩

theorem isHashable_unionOf (style : UnionStyle) {exprs : List TypeExpr}
    (h : ∀ expr ∈ exprs, expr.IsHashable) : (unionOf style exprs).IsHashable := by
  have hmembers : ∀ member ∈ distinct (exprs.flatMap unionMembers), member.IsHashable := by
    intro member hmember
    obtain ⟨expr, hexpr, hmember⟩ := List.mem_flatMap.mp (mem_of_mem_distinct hmember)
    cases expr with
    | union other members => exact (h _ hexpr).child hmember
    | _ =>
      rw [List.mem_singleton.mp hmember, isHashable_asClass]
      exact h _ hexpr
  unfold unionOf
  split
  · next single heq => exact hmembers single (heq ▸ List.mem_singleton_self single)
  · exact isHashable_union.mpr hmembers

theorem isHashable_literalOf {values : List Json}
    (h : ∀ value ∈ values, value.unhashable? = .none) : (literalOf values).IsHashable := by
  have hkept : ∀ (values kept : List Json), (∀ value ∈ values, value.unhashable? = .none) →
      (∀ value ∈ kept, value.unhashable? = .none) →
        ∀ value ∈ values.foldl (fun kept v => if v ∈ kept then kept else kept ++ [v]) kept,
          value.unhashable? = .none := by
    intro values
    induction values with
    | nil => exact fun kept _ hkept => hkept
    | cons first rest ih =>
      intro kept hvalues hkept
      obtain ⟨hfirst, hrest⟩ := List.forall_mem_cons.mp hvalues
      refine ih _ hrest ?_
      dsimp only
      split
      · exact hkept
      · exact List.forall_mem_append.mpr ⟨hkept, List.forall_mem_singleton.mpr hfirst⟩
  rw [literalOf, IsHashable, unhashable?, List.findSome?_eq_none_iff]
  exact hkept values [] h (List.forall_mem_nil _)

end TypeExpr

def Evaluated.IsHashable (evaluated : Evaluated) : Prop :=
  ∀ entry ∈ evaluated.results, entry.2.IsHashable

namespace Evaluation

open TypeExpr

/-- Whether an evaluation keeps results that can be looked up. If its input can be looked up, it
does not fail for want of that, and something holds of what it comes to. -/
def Hashes {α : Type} (input : Prop) (Q : α → Prop) (x : Evaluation α) : Prop :=
  ∀ before : Evaluated, before.IsHashable →
    (∀ a after, x.run before = .ok (a, after) → after.IsHashable ∧ (input → Q a)) ∧
      (input → ∀ type, x.run before ≠ .error (.unhashable type))

section Hashes

variable {α β : Type} {input : Prop} {P : α → Prop} {Q : β → Prop}

theorem Hashes.pure {a : α} (h : input → P a) : Hashes input P (Pure.pure a) := by
  refine fun before hbefore => ⟨fun a' after hrun => ?_, fun _ _ h => by cases h⟩
  cases hrun
  exact ⟨hbefore, h⟩

theorem Hashes.bind {x : Evaluation α} {f : α → Evaluation β} (hx : Hashes input P x)
    (hf : ∀ a, (input → P a) → Hashes input Q (f a)) : Hashes input Q (x >>= f) := by
  intro before hbefore
  obtain ⟨hok, herror⟩ := hx before hbefore
  cases hrun : x.run before with
  | error error =>
    have hstop : (x >>= f).run before = .error error := by
      rw [StateT.run_bind, hrun]
      rfl
    rw [hstop]
    refine ⟨(fun _ _ h => by cases h), fun hinput type heq => herror hinput type ?_⟩
    cases heq
    exact hrun
  | ok result =>
    obtain ⟨a, middle⟩ := result
    obtain ⟨hmiddle, ha⟩ := hok a middle hrun
    rw [run_bind_of_eq_ok hrun]
    exact hf a ha middle hmiddle

theorem Hashes.weaken {other : Prop} {x : Evaluation α} (hx : Hashes input P x)
    (hinput : other → input) : Hashes other P x := by
  intro before hbefore
  obtain ⟨hok, herror⟩ := hx before hbefore
  refine ⟨fun a after hrun => ?_, fun hother => herror (hinput hother)⟩
  exact (hok a after hrun).imp_right fun ha hother => ha (hinput hother)

end Hashes

/-- What is kept is hashable, as its parts were. -/
theorem hashes_subscribe (subscription : Subscription) :
    Hashes (subscription.unhashable? = .none) TypeExpr.IsHashable (subscribe subscription) := by
  have hmade : ∀ result, subscription.make = .ok result → subscription.unhashable? = .none →
      result.IsHashable := by
    intro result hmake hparts
    cases subscription with
    | container head arguments =>
      cases hmake
      exact isHashable_applyTo (unhashableAmong?_eq_none.mp hparts)
    | union members =>
      rw [Subscription.make, show unhashableAmong? members = .none from hparts] at hmake
      cases hmake
      exact isHashable_unionOf .named (unhashableAmong?_eq_none.mp hparts)
    | annotated base refinements =>
      cases hmake
      exact isHashable_refine hparts
  have hmakes : ∀ type, subscription.make = .error (.unhashable type) →
      subscription.unhashable? ≠ .none := by
    intro type hmake hparts
    cases subscription with
    | union members =>
      rw [Subscription.make, show unhashableAmong? members = .none from hparts] at hmake
      cases hmake
    | _ => cases hmake
  intro before hbefore
  have hread : ∀ next : Evaluated → Evaluation TypeExpr,
      (get >>= next).run before = (next before).run before := fun _ => rfl
  rw [subscribe, hread]
  split
  · next earlier result hfound =>
    refine ⟨fun a after hrun => ?_, fun _ _ h => by cases h⟩
    cases hrun
    exact ⟨hbefore, fun _ => hbefore _ (List.mem_of_find?_eq_some hfound)⟩
  · cases hmake : subscription.make with
    | error error =>
      refine ⟨(fun _ _ h => by cases h), fun hparts type heq => hmakes type ?_ hparts⟩
      cases heq
      exact hmake
    | ok result =>
      cases hparts : subscription.unhashable? with
      | some type =>
        refine ⟨fun a after hrun => ?_, fun _ _ h => by cases h⟩
        cases hrun
        exact ⟨hbefore, fun h => by cases h⟩
      | none =>
        have hresult := hmade result hmake hparts
        refine ⟨fun a after hrun => ?_, fun _ _ h => by cases h⟩
        cases hrun
        exact ⟨List.forall_mem_cons.mpr ⟨hresult, hbefore⟩, fun _ => hresult⟩

theorem hashes_join (a b : TypeExpr) :
    Hashes (∀ expr ∈ [a, b], expr.IsHashable) TypeExpr.IsHashable (join a b) := by
  unfold join
  split
  · exact .pure (isHashable_unionOf .bars)
  · exact (hashes_subscribe (.union [a, b])).weaken unhashableAmong?_eq_none.mpr

theorem hashes_label (refinements : List Refinement) :
    Hashes (∀ refinement ∈ refinements, refinement.unhashable? = .none)
      (fun labelled => ∀ refinement ∈ labelled, refinement.unhashable? = .none)
      (label refinements) := by
  unfold label
  induction refinements with
  | nil => exact .pure fun _ => List.forall_mem_nil _
  | cons refinement rest ih =>
    rw [List.mapM_cons]
    have hhead : Hashes (∀ other ∈ refinement :: rest, other.unhashable? = .none)
        (fun labelled : Refinement => labelled.unhashable? = .none)
        (modifyGet fun state => (refinement.withLabel state.nextLabel,
          { state with nextLabel := state.nextLabel + 1 })) := by
      refine fun before hbefore => ⟨fun labelled after hrun => ?_, fun _ _ h => by cases h⟩
      cases hrun
      refine ⟨hbefore, fun hall => ?_⟩
      have hgiven := hall refinement List.mem_cons_self
      cases refinement <;> exact hgiven
    refine hhead.bind fun labelled hlabelled => ?_
    refine (ih.weaken fun hall => (List.forall_mem_cons.mp hall).2).bind fun others hothers => ?_
    exact .pure fun hall => List.forall_mem_cons.mpr ⟨hlabelled hall, hothers hall⟩

theorem hashes_lookUp (input : Prop) (isDefined : String → Bool) (head : TypeHead) :
    Hashes input (fun _ => True) (lookUp isDefined head) := by
  cases head with
  | standard container => exact .pure fun _ => trivial
  | synonym container => exact .pure fun _ => trivial
  | declared name =>
    simp only [lookUp]
    split
    · exact .pure fun _ => trivial
    · exact fun before hbefore => ⟨(fun _ _ h => by cases h), fun _ _ h => by cases h⟩

end Evaluation

namespace TypeTerm

open Evaluation

mutual
/-- The value of a hashable term is hashable. -/
theorem hashes_evaluate (isDefined : String → Bool) (term : TypeTerm) :
    Hashes term.IsHashable TypeExpr.IsHashable (term.evaluate isDefined) := by
  cases term with
  | none | ellipsis | parameter => exact .pure fun _ => rfl
  | literal values =>
    refine .pure fun hvalues => TypeExpr.isHashable_literalOf ?_
    rwa [IsHashable] at hvalues
  | named head => exact (hashes_lookUp _ isDefined head).bind fun _ _ => .pure fun _ => rfl
  | applied given arguments =>
    refine (hashes_lookUp _ isDefined given).bind fun head _ => ?_
    refine ((hashes_evaluateAll isDefined arguments).weaken fun h => by rwa [IsHashable] at h).bind
      fun values hvalues => ?_
    cases head with
    | standard container => exact .pure fun h => TypeExpr.isHashable_applyTo (hvalues h)
    | synonym container =>
      exact (hashes_subscribe (.container _ values)).weaken fun h =>
        TypeExpr.unhashableAmong?_eq_none.mpr (hvalues h)
    | declared name =>
      exact (hashes_subscribe (.container _ values)).weaken fun h =>
        TypeExpr.unhashableAmong?_eq_none.mpr (hvalues h)
  | optional inner =>
    refine ((hashes_evaluate isDefined inner).weaken fun h => by rwa [IsHashable] at h).bind
      fun value hvalue => ?_
    refine (hashes_subscribe (.union [value, .noneType])).weaken fun h => ?_
    refine TypeExpr.unhashableAmong?_eq_none.mpr (List.forall_mem_cons.mpr ⟨hvalue h, ?_⟩)
    exact List.forall_mem_singleton.mpr rfl
  | union members =>
    refine ((hashes_evaluateAll isDefined members).weaken fun h => by rwa [IsHashable] at h).bind
      fun values hvalues => ?_
    exact (hashes_subscribe (.union values)).weaken fun h =>
      TypeExpr.unhashableAmong?_eq_none.mpr (hvalues h)
  | bars members =>
    cases members with
    | nil => exact .pure fun _ => rfl
    | cons first rest =>
      have hparts : (bars (first :: rest)).IsHashable →
          first.IsHashable ∧ ∀ member ∈ rest, member.IsHashable := by
        intro h
        rw [IsHashable] at h
        exact List.forall_mem_cons.mp h
      refine ((hashes_evaluate isDefined first).weaken fun h => (hparts h).1).bind
        fun value hvalue => ?_
      exact (hashes_evaluateBars isDefined value rest).weaken fun h => ⟨hvalue h, (hparts h).2⟩
  | annotated base refinements =>
    have hparts : (annotated base refinements).IsHashable →
        base.IsHashable ∧ ∀ refinement ∈ refinements, refinement.unhashable? = .none := by
      intro h
      rwa [IsHashable] at h
    refine ((hashes_evaluate isDefined base).weaken fun h => (hparts h).1).bind
      fun value hvalue => ?_
    refine ((hashes_label refinements).weaken fun h => (hparts h).2).bind
      fun labelled hlabelled => ?_
    exact (hashes_subscribe (.annotated value labelled)).weaken fun h =>
      TypeExpr.isHashable_annotated.mpr ⟨hvalue h, hlabelled h⟩

theorem hashes_evaluateAll (isDefined : String → Bool) (terms : List TypeTerm) :
    Hashes (∀ term ∈ terms, term.IsHashable) (fun values => ∀ value ∈ values, value.IsHashable)
      (evaluateAll isDefined terms) := by
  cases terms with
  | nil => exact .pure fun _ => List.forall_mem_nil _
  | cons first rest =>
    refine ((hashes_evaluate isDefined first).weaken fun h => (List.forall_mem_cons.mp h).1).bind
      fun value hvalue => ?_
    refine ((hashes_evaluateAll isDefined rest).weaken fun h => (List.forall_mem_cons.mp h).2).bind
      fun values hvalues => ?_
    exact .pure fun h => List.forall_mem_cons.mpr ⟨hvalue h, hvalues h⟩

theorem hashes_evaluateBars (isDefined : String → Bool) (before : TypeExpr)
    (terms : List TypeTerm) :
    Hashes (before.IsHashable ∧ ∀ term ∈ terms, term.IsHashable) TypeExpr.IsHashable
      (evaluateBars isDefined before terms) := by
  cases terms with
  | nil => exact .pure fun h => h.1
  | cons next rest =>
    refine ((hashes_evaluate isDefined next).weaken fun h =>
      (List.forall_mem_cons.mp h.2).1).bind fun value hvalue => ?_
    refine ((hashes_join before value).weaken fun h => ?_).bind fun joined hjoined => ?_
    · exact List.forall_mem_cons.mpr ⟨h.1, List.forall_mem_singleton.mpr (hvalue h)⟩
    · exact (hashes_evaluateBars isDefined joined rest).weaken fun h =>
        ⟨hjoined h, (List.forall_mem_cons.mp h.2).2⟩
end

end TypeTerm

namespace ClassTable

def IsHashable (table : ClassTable) : Prop :=
  ∀ owner ∈ table, ∀ field ∈ owner.fields, field.term.IsHashable

variable {table : ClassTable} {before after : Evaluated} {type : ClassDeclaration}

theorem Reached.isHashable (h : table.Reached before) : before.IsHashable := by
  induction h with
  | nothing => exact List.forall_mem_nil _
  | @evaluate before after term expr _ hrun ih =>
    exact ((TypeTerm.hashes_evaluate _ term before ih).1 expr after hrun).1

theorem mem_of_mem_ownFields {field : ClassField} (hfield : field ∈ ownFields type) :
    field ∈ type.fields := by
  have hkept : ∀ fields kept : List ClassField, field ∈ fields.foldl (addField (·.name)) kept →
      field ∈ kept ∨ field ∈ fields := by
    intro fields
    induction fields with
    | nil => exact fun kept hmem => .inl hmem
    | cons first rest ih =>
      intro kept hmem
      rcases ih _ hmem with hmem | hmem
      · rcases mem_of_mem_addField hmem with hmem | rfl
        · exact .inl hmem
        · exact .inr List.mem_cons_self
      · exact .inr (List.mem_cons_of_mem _ hmem)
  exact (hkept type.fields [] hfield).resolve_left List.not_mem_nil

theorem mem_of_find?_eq_some {name : String} (hfound : table.find? name = some type) :
    type ∈ table :=
  List.mem_reverse.mp (List.mem_of_find?_eq_some hfound)

theorem mem_of_mem_lineage {count : Nat} {ancestor : ClassDeclaration} (htype : type ∈ table)
    (hancestor : ancestor ∈ table.lineage count type) : ancestor ∈ table := by
  induction count generalizing type with
  | zero => exact List.mem_singleton.mp hancestor ▸ htype
  | succ count ih =>
    rw [lineage] at hancestor
    split at hancestor
    · next base hbase =>
      obtain ⟨name, _, hfound⟩ := Option.bind_eq_some_iff.mp hbase
      rcases List.mem_append.mp hancestor with hmem | hmem
      · exact ih (mem_of_find?_eq_some hfound) hmem
      · exact List.mem_singleton.mp hmem ▸ htype
    · exact List.mem_singleton.mp hancestor ▸ htype

theorem hashes_evaluateAll (fields : List ClassField) :
    Evaluation.Hashes (∀ field ∈ fields, field.term.IsHashable)
      (fun values => ∀ value ∈ values, value.2.IsHashable) (table.evaluateAll fields) := by
  unfold evaluateAll
  induction fields with
  | nil => exact .pure fun _ => List.forall_mem_nil _
  | cons field rest ih =>
    rw [List.mapM_cons]
    have hfirst : Evaluation.Hashes (∀ other ∈ field :: rest, other.term.IsHashable)
        (fun value : ClassField × TypeExpr => value.2.IsHashable) (do
          return (field, ← field.term.evaluate fun name => (table.find? name).isSome)) :=
      ((TypeTerm.hashes_evaluate _ field.term).weaken fun h => h field List.mem_cons_self).bind
        fun expr hexpr => .pure hexpr
    refine hfirst.bind fun value hvalue => ?_
    refine (ih.weaken fun h => (List.forall_mem_cons.mp h).2).bind fun values hvalues => ?_
    exact .pure fun h => List.forall_mem_cons.mpr ⟨hvalue h, hvalues h⟩

/-- The annotations of a class are hashable if those of all classes are. -/
theorem hashes_evaluateFields (htype : type ∈ table) :
    Evaluation.Hashes table.IsHashable (fun values => ∀ value ∈ values, value.2.IsHashable)
      (table.evaluateFields type) := by
  have hfields : table.IsHashable →
      ∀ field ∈ (table.lineageOf type).flatMap ownFields, field.term.IsHashable := by
    intro htable field hfield
    obtain ⟨ancestor, hancestor, hfield⟩ := List.mem_flatMap.mp hfield
    exact htable ancestor (mem_of_mem_lineage htype hancestor) field (mem_of_mem_ownFields hfield)
  refine ((hashes_evaluateAll _).weaken hfields).bind fun values hvalues => .pure fun htable => ?_
  have hkept : ∀ values kept : List (ClassField × TypeExpr),
      (∀ value ∈ values, value.2.IsHashable) → (∀ value ∈ kept, value.2.IsHashable) →
        ∀ value ∈ values.foldl (addField (·.1.name)) kept, value.2.IsHashable := by
    intro values
    induction values with
    | nil => exact fun kept _ hkept => hkept
    | cons first rest ih =>
      intro kept hvalues hkept
      obtain ⟨hfirst, hrest⟩ := List.forall_mem_cons.mp hvalues
      refine ih _ hrest fun value hvalue => ?_
      rcases mem_of_mem_addField hvalue with hmem | rfl
      · exact hkept value hmem
      · exact hfirst
  exact hkept values [] (hvalues htable) (List.forall_mem_nil _)

end ClassTable
end ShapeSchema
