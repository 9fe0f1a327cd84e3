import Mathlib.Logic.Relation
import ShapeSchema.Proofs.Derivation.Level
import ShapeSchema.Reflection.Class

/-!
Which classes a type expression uses, by their names alone or as instances. Evaluation adds none,
also where it hands out an earlier result, so that what a class uses can be read off its annotations
as they are written.
-/

namespace ShapeSchema

/-- A use of a class: by its name alone, or with arguments. -/
structure ClassUse where
  name : String
  isInstance : Bool
deriving DecidableEq

def TypeHead.uses (isInstance : Bool) : TypeHead → List ClassUse
  | declared name => [⟨name, isInstance⟩]
  | _ => []

namespace TypeExpr

def children : TypeExpr → List TypeExpr
  | applied _ arguments => arguments
  | union _ members => members
  | annotated base _ => [base]
  | _ => []

/-- The members of a union but for none. -/
def alternatives (members : List TypeExpr) : List TypeExpr :=
  members.filter (!·.isNoneType)

theorem mem_of_mem_alternatives {members : List TypeExpr} {member : TypeExpr}
    (hmember : member ∈ alternatives members) : member ∈ members :=
  (List.mem_filter.mp hmember).1

theorem sizeOf_lt_of_mem_children {expr part : TypeExpr} (hpart : part ∈ expr.children) :
    sizeOf part < sizeOf expr := by
  cases expr with
  | applied head arguments =>
    have hlt : sizeOf part < sizeOf arguments := List.sizeOf_lt_of_mem hpart
    rw [applied.sizeOf_spec]
    omega
  | union style members =>
    have hlt : sizeOf part < sizeOf members := List.sizeOf_lt_of_mem hpart
    rw [union.sizeOf_spec]
    omega
  | annotated base refinements =>
    rw [List.mem_singleton.mp hpart, annotated.sizeOf_spec]
    omega
  | _ => cases hpart

/-- What holds of a type expression if it holds of those directly inside holds of all. -/
theorem children_induction {motive : TypeExpr → Prop}
    (h : ∀ expr, (∀ part ∈ expr.children, motive part) → motive expr) (expr : TypeExpr) :
    motive expr := by
  refine h expr fun part hpart => ?_
  have hlt := sizeOf_lt_of_mem_children hpart
  exact children_induction h part
termination_by sizeOf expr

mutual
/-- The uses of classes in a type expression. -/
def uses : TypeExpr → List ClassUse
  | named head => head.uses false
  | applied head arguments => head.uses true ++ usesAll arguments
  | union _ members => usesAll members
  | annotated base _ => uses base
  | _ => []

def usesAll : List TypeExpr → List ClassUse
  | [] => []
  | expr :: rest => uses expr ++ usesAll rest
end

theorem mem_usesAll {exprs : List TypeExpr} {use : ClassUse} :
    use ∈ usesAll exprs ↔ ∃ expr ∈ exprs, use ∈ expr.uses := by
  induction exprs with
  | nil => simp [usesAll]
  | cons expr rest ih => simp [usesAll, ih]

theorem uses_subset_usesAll {exprs : List TypeExpr} {expr : TypeExpr} (hexpr : expr ∈ exprs) :
    expr.uses ⊆ usesAll exprs :=
  fun _ huse => mem_usesAll.mpr ⟨expr, hexpr, huse⟩

theorem usesAll_subset {exprs : List TypeExpr} {uses : List ClassUse}
    (h : ∀ expr ∈ exprs, expr.uses ⊆ uses) : usesAll exprs ⊆ uses := by
  intro use huse
  obtain ⟨expr, hexpr, huse⟩ := mem_usesAll.mp huse
  exact h expr hexpr huse

theorem uses_child {expr part : TypeExpr} (hpart : part ∈ expr.children) :
    part.uses ⊆ expr.uses := by
  cases expr with
  | applied head arguments =>
    exact List.subset_append_of_subset_right _ (uses_subset_usesAll hpart)
  | union style members => exact uses_subset_usesAll hpart
  | annotated base refinements =>
    rw [List.mem_singleton.mp hpart]
    exact List.Subset.refl _
  | _ => cases hpart

theorem sameAll_iff {exprs others : List TypeExpr} :
    sameAll exprs others ↔ List.Forall₂ (fun a b => a.same b) exprs others := by
  induction exprs generalizing others with
  | nil => cases others <;> simp [sameAll]
  | cons a rest ih => cases others <;> simp [sameAll, ih]

theorem sameAmong_iff {exprs others : List TypeExpr} :
    sameAmong exprs others ↔ ∀ a ∈ exprs, ∃ b ∈ others, a.same b := by
  induction exprs with
  | nil => simp [sameAmong]
  | cons a rest ih => simp [sameAmong, ih]

theorem covers_iff {exprs others : List TypeExpr} :
    covers exprs others ↔ ∀ b ∈ others, ∃ a ∈ exprs, a.same b := by
  induction exprs generalizing others with
  | nil => simp [covers, List.eq_nil_iff_forall_not_mem]
  | cons a rest ih =>
    rw [covers, ih]
    constructor
    · intro h b hb
      cases hsame : a.same b with
      | true => exact ⟨a, List.mem_cons_self, hsame⟩
      | false =>
        obtain ⟨other, hother, hsame⟩ := h b (List.mem_filter.mpr ⟨hb, by simp [hsame]⟩)
        exact ⟨other, List.mem_cons_of_mem a hother, hsame⟩
    · intro h b hb
      obtain ⟨hb, hdiffers⟩ := List.mem_filter.mp hb
      obtain ⟨other, hother, hsame⟩ := h b hb
      rcases List.mem_cons.mp hother with rfl | hother
      · simp [hsame] at hdiffers
      · exact ⟨other, hother, hsame⟩

/-- Type expressions that are the same use the same classes. -/
theorem mem_uses_of_same {a b : TypeExpr} (hsame : a.same b) (use : ClassUse) :
    use ∈ a.uses ↔ use ∈ b.uses := by
  induction a using children_induction generalizing b with
  | h a ih =>
    cases a with
    | applied head arguments =>
      cases b with
      | applied other others =>
        simp only [same, Bool.and_eq_true, decide_eq_true_eq, sameAll_iff] at hsame
        obtain ⟨rfl, hsame⟩ := hsame
        have harguments : ∀ {xs ys : List TypeExpr}, List.Forall₂ (fun a b => a.same b) xs ys →
            xs ⊆ arguments → (use ∈ usesAll xs ↔ use ∈ usesAll ys) := by
          intro xs ys h
          induction h with
          | nil => exact fun _ => Iff.rfl
          | cons hhead _ hrest =>
            intro hsub
            obtain ⟨hmem, hsub⟩ := List.cons_subset.mp hsub
            rw [usesAll, usesAll, List.mem_append, List.mem_append, ih _ hmem hhead, hrest hsub]
        rw [uses, uses, List.mem_append, List.mem_append,
          harguments hsame (List.Subset.refl arguments)]
      | _ => simp [same] at hsame
    | union style members =>
      cases b with
      | union other others =>
        simp only [same, Bool.and_eq_true, sameAmong_iff, covers_iff] at hsame
        rw [uses, uses, mem_usesAll, mem_usesAll]
        constructor
        · rintro ⟨x, hx, huse⟩
          obtain ⟨y, hy, hxy⟩ := hsame.1 x hx
          exact ⟨y, hy, (ih x hx hxy).mp huse⟩
        · rintro ⟨y, hy, huse⟩
          obtain ⟨x, hx, hxy⟩ := hsame.2 y hy
          exact ⟨x, hx, (ih x hx hxy).mpr huse⟩
      | _ => simp [same] at hsame
    | annotated base refinements =>
      cases b with
      | annotated other others =>
        simp only [same, Bool.and_eq_true] at hsame
        rw [uses, uses]
        exact ih base (List.mem_singleton_self base) hsame.1.1
      | _ => simp [same] at hsame
    | named head =>
      cases b with
      | named other =>
        simp only [same, decide_eq_true_eq] at hsame
        rw [hsame]
      | _ => simp [same] at hsame
    | none | ellipsis | literal | parameter =>
      cases b <;> first | simp [same] at hsame; done | exact Iff.rfl

theorem uses_asClass (expr : TypeExpr) : expr.asClass.uses = expr.uses := by
  cases expr <;> rfl

theorem uses_applyTo (head : TypeHead) (arguments : List TypeExpr) :
    (applyTo head arguments).uses ⊆ head.uses true ++ usesAll arguments := by
  have hclasses : usesAll (arguments.map asClass) ⊆ usesAll arguments := by
    refine usesAll_subset fun expr hexpr => ?_
    obtain ⟨given, hgiven, rfl⟩ := List.mem_map.mp hexpr
    rw [uses_asClass]
    exact uses_subset_usesAll hgiven
  cases head with
  | standard container => exact List.Subset.refl _
  | synonym container => exact hclasses
  | declared name => exact List.cons_subset_cons _ hclasses

theorem uses_refine (base : TypeExpr) (refinements : List Refinement) :
    (base.refine refinements).uses = base.uses := by
  cases base with
  | annotated inner earlier => rfl
  | _ => exact uses_asClass _

theorem mem_of_mem_distinct {exprs : List TypeExpr} {expr : TypeExpr}
    (hexpr : expr ∈ distinct exprs) : expr ∈ exprs := by
  have hkept : ∀ (exprs kept : List TypeExpr), expr ∈ exprs.foldl
      (fun kept a => if kept.any (same a) then kept else kept ++ [a]) kept →
        expr ∈ kept ∨ expr ∈ exprs := by
    intro exprs
    induction exprs with
    | nil => exact fun kept hmem => .inl hmem
    | cons a rest ih =>
      intro kept hmem
      rcases ih _ hmem with hmem | hmem
      · dsimp only at hmem
        split at hmem
        · exact .inl hmem
        · rcases List.mem_append.mp hmem with hmem | hmem
          · exact .inl hmem
          · exact .inr (List.mem_singleton.mp hmem ▸ List.mem_cons_self)
      · exact .inr (List.mem_cons_of_mem a hmem)
  exact (hkept exprs [] hexpr).resolve_left List.not_mem_nil

theorem uses_unionOf (style : UnionStyle) (exprs : List TypeExpr) :
    (unionOf style exprs).uses ⊆ usesAll exprs := by
  have hmembers : ∀ member ∈ distinct (exprs.flatMap unionMembers),
      member.uses ⊆ usesAll exprs := by
    intro member hmember
    obtain ⟨expr, hexpr, hmember⟩ := List.mem_flatMap.mp (mem_of_mem_distinct hmember)
    have hinside : member.uses ⊆ expr.uses := by
      cases expr with
      | union other members => exact uses_child hmember
      | _ =>
        rw [List.mem_singleton.mp hmember, uses_asClass]
        exact List.Subset.refl _
    exact List.Subset.trans hinside (uses_subset_usesAll hexpr)
  unfold unionOf
  split
  · next single heq => exact hmembers single (heq ▸ List.mem_singleton_self single)
  · exact usesAll_subset hmembers

end TypeExpr

namespace TypeTerm

mutual
def uses : TypeTerm → List ClassUse
  | named head => head.uses false
  | applied head arguments => head.uses true ++ usesAll arguments
  | optional inner => uses inner
  | union members | bars members => usesAll members
  | annotated base _ => uses base
  | _ => []

def usesAll : List TypeTerm → List ClassUse
  | [] => []
  | term :: rest => uses term ++ usesAll rest
end

end TypeTerm

namespace Subscription

def uses : Subscription → List ClassUse
  | container head arguments => head.uses true ++ TypeExpr.usesAll arguments
  | union members => TypeExpr.usesAll members
  | annotated base _ => base.uses

theorem usesAll_of_sameAll {exprs others : List TypeExpr}
    (hsame : TypeExpr.sameAll exprs others) : TypeExpr.usesAll exprs ⊆ TypeExpr.usesAll others := by
  intro use huse
  have happlied := (TypeExpr.mem_uses_of_same (a := .applied (.standard .list) exprs)
    (b := .applied (.standard .list) others) (by simp [TypeExpr.same, hsame]) use).mp
  exact happlied huse

/-- What is handed out again uses no class that the subscription does not use. -/
theorem uses_of_same {earlier subscription : Subscription} (hsame : earlier.same subscription) :
    earlier.uses ⊆ subscription.uses := by
  cases earlier with
  | container head arguments =>
    cases subscription with
    | container other others =>
      simp only [same, Bool.and_eq_true, decide_eq_true_eq] at hsame
      obtain ⟨rfl, hsame⟩ := hsame
      exact List.append_subset.mpr ⟨List.subset_append_left _ _,
        List.subset_append_of_subset_right _ (usesAll_of_sameAll hsame)⟩
    | _ => simp [same] at hsame
  | union members =>
    cases subscription with
    | union others => exact usesAll_of_sameAll hsame
    | _ => simp [same] at hsame
  | annotated base refinements =>
    cases subscription with
    | annotated other others => exact fun use => (TypeExpr.mem_uses_of_same hsame use).mp
    | _ => simp [same] at hsame

theorem uses_of_make {subscription : Subscription} {result : TypeExpr}
    (hmake : subscription.make = .ok result) : result.uses ⊆ subscription.uses := by
  cases subscription with
  | container head arguments =>
    cases hmake
    exact TypeExpr.uses_applyTo head arguments
  | union members =>
    simp only [make] at hmake
    split at hmake
    · cases hmake
    · cases hmake
      exact TypeExpr.uses_unionOf .named members
  | annotated base refinements =>
    cases hmake
    rw [TypeExpr.uses_refine]
    exact List.Subset.refl _

end Subscription

theorem run_bind_eq_ok {σ ε α β : Type} {x : StateT σ (Except ε) α} {f : α → StateT σ (Except ε) β}
    {before after : σ} {b : β} (hrun : (x >>= f).run before = .ok (b, after)) :
    ∃ a middle, x.run before = .ok (a, middle) ∧ (f a).run middle = .ok (b, after) := by
  rw [StateT.run_bind] at hrun
  obtain ⟨⟨a, middle⟩, hx, hf⟩ := bind_eq_ok.mp hrun
  exact ⟨a, middle, hx, hf⟩

theorem run_bind_of_eq_ok {σ ε α β : Type} {x : StateT σ (Except ε) α}
    {f : α → StateT σ (Except ε) β} {before middle : σ} {a : α}
    (hrun : x.run before = .ok (a, middle)) : (x >>= f).run before = (f a).run middle := by
  rw [StateT.run_bind, hrun]
  rfl

def Evaluated.IsSound (evaluated : Evaluated) : Prop :=
  ∀ entry ∈ evaluated.results, entry.1.make = .ok entry.2

namespace Evaluation

/-- Whether an evaluation keeps results sound, and something holds of what it comes to. -/
def Keeps {α : Type} (Q : α → Prop) (x : Evaluation α) : Prop :=
  ∀ before : Evaluated, before.IsSound → ∀ a after, x.run before = .ok (a, after) →
    after.IsSound ∧ Q a

section Keeps

variable {α β : Type}

theorem Keeps.pure {Q : α → Prop} {a : α} (h : Q a) : Keeps Q (Pure.pure a) := by
  intro before hsound a' after hrun
  cases hrun
  exact ⟨hsound, h⟩

theorem Keeps.bind {P : α → Prop} {Q : β → Prop} {x : Evaluation α} {f : α → Evaluation β}
    (hx : Keeps P x) (hf : ∀ a, P a → Keeps Q (f a)) : Keeps Q (x >>= f) := by
  intro before hsound b after hrun
  obtain ⟨a, middle, hrun, hrest⟩ := run_bind_eq_ok hrun
  obtain ⟨hmiddle, ha⟩ := hx before hsound a middle hrun
  exact hf a ha middle hmiddle b after hrest

theorem Keeps.imp {P Q : α → Prop} {x : Evaluation α} (hx : Keeps P x) (hPQ : ∀ a, P a → Q a) :
    Keeps Q x :=
  fun before hsound a after hrun => (hx before hsound a after hrun).imp_right (hPQ a)

end Keeps

/-- A result is made from what is subscribed or from what was subscribed before and is the same. -/
theorem keeps_make (subscription : Subscription) :
    Keeps (fun result => ∃ given, given.make = .ok result ∧
      (given = subscription ∨ given.same subscription)) (subscribe subscription) := by
  intro before hsound result after hrun
  simp only [subscribe] at hrun
  obtain ⟨state, _, hstate, hrun⟩ := run_bind_eq_ok hrun
  cases hstate
  split at hrun
  · next earlier result hfound =>
    cases hrun
    have hmem := List.mem_of_find?_eq_some hfound
    have hsame := List.find?_some hfound
    exact ⟨hsound, earlier, hsound _ hmem, .inr hsame⟩
  · obtain ⟨made, middle, hmade, hrun⟩ := run_bind_eq_ok hrun
    have hmake : subscription.make = .ok made ∧ before = middle := by
      cases hresult : subscription.make with
      | error e => rw [hresult] at hmade; cases hmade
      | ok value => rw [hresult] at hmade; cases hmade; exact ⟨rfl, rfl⟩
    obtain ⟨hmake, rfl⟩ := hmake
    split at hrun
    · cases hrun
      exact ⟨List.forall_mem_cons.mpr ⟨hmake, hsound⟩, subscription, hmake, .inl rfl⟩
    · cases hrun
      exact ⟨hsound, subscription, hmake, .inl rfl⟩

theorem keeps_subscribe (subscription : Subscription) :
    Keeps (·.uses ⊆ subscription.uses) (subscribe subscription) := by
  refine (keeps_make subscription).imp fun result hresult => ?_
  obtain ⟨given, hmake, rfl | hsame⟩ := hresult
  · exact Subscription.uses_of_make hmake
  · exact List.Subset.trans (Subscription.uses_of_make hmake) (Subscription.uses_of_same hsame)

theorem keeps_join (a b : TypeExpr) : Keeps (·.uses ⊆ TypeExpr.usesAll [a, b]) (join a b) := by
  unfold join
  split
  · exact .pure (TypeExpr.uses_unionOf .bars [a, b])
  · exact keeps_subscribe (.union [a, b])

/-- Refinements stay but for their labels. -/
theorem keeps_label (refinements : List Refinement) :
    Keeps (fun labelled => ∀ refinement ∈ refinements, ∃ index,
      refinement.withLabel index ∈ labelled) (label refinements) := by
  unfold label
  induction refinements with
  | nil => exact .pure (List.forall_mem_nil _)
  | cons refinement rest ih =>
    rw [List.mapM_cons]
    have hfirst : Keeps (fun labelled => ∃ index, refinement.withLabel index = labelled)
        (modifyGet fun state => (refinement.withLabel state.nextLabel,
          { state with nextLabel := state.nextLabel + 1 })) := by
      intro before hsound a after hrun
      cases hrun
      exact ⟨hsound, _, rfl⟩
    refine hfirst.bind fun labelled hlabelled => ih.bind fun others hothers => .pure ?_
    obtain ⟨index, hindex⟩ := hlabelled
    refine List.forall_mem_cons.mpr ⟨⟨index, hindex ▸ List.mem_cons_self⟩, fun other hother => ?_⟩
    obtain ⟨index, hmem⟩ := hothers other hother
    exact ⟨index, List.mem_cons_of_mem _ hmem⟩

theorem keeps_lookUp (isDefined : String → Bool) (head : TypeHead) :
    Keeps (· = head) (lookUp isDefined head) := by
  cases head with
  | standard container => exact .pure rfl
  | synonym container => exact .pure rfl
  | declared name =>
    simp only [lookUp]
    split
    · exact .pure rfl
    · intro before hsound a after hrun
      cases hrun

end Evaluation

namespace TypeTerm

open Evaluation

mutual
/-- The value of a type expression uses no further classes. -/
theorem keeps_evaluate (isDefined : String → Bool) (term : TypeTerm) :
    Keeps (·.uses ⊆ term.uses) (term.evaluate isDefined) := by
  cases term with
  | none | ellipsis | parameter | literal =>
    exact .pure (List.nil_subset _)
  | named head =>
    refine (keeps_lookUp isDefined head).bind ?_
    rintro _ rfl
    exact .pure (List.Subset.refl _)
  | applied given arguments =>
    refine (keeps_lookUp isDefined given).bind ?_
    rintro head rfl
    refine (keeps_evaluateAll isDefined arguments).bind fun values hvalues => ?_
    have huses : head.uses true ++ TypeExpr.usesAll values ⊆
        (applied head arguments).uses := by
      rw [uses]
      exact List.append_subset.mpr ⟨List.subset_append_left _ _,
        List.subset_append_of_subset_right _ hvalues⟩
    cases head with
    | standard container => exact .pure (List.Subset.trans (TypeExpr.uses_applyTo _ _) huses)
    | synonym container =>
      exact (keeps_subscribe (.container _ values)).imp fun _ h => List.Subset.trans h huses
    | declared name =>
      exact (keeps_subscribe (.container _ values)).imp fun _ h => List.Subset.trans h huses
  | optional inner =>
    refine (keeps_evaluate isDefined inner).bind fun value hvalue => ?_
    refine (keeps_subscribe (.union [value, .noneType])).imp fun _ h => List.Subset.trans h ?_
    refine TypeExpr.usesAll_subset fun expr hexpr => ?_
    rcases List.mem_cons.mp hexpr with rfl | hexpr
    · exact hvalue
    · rw [List.mem_singleton.mp hexpr]
      exact List.nil_subset _
  | union members =>
    refine (keeps_evaluateAll isDefined members).bind fun values hvalues => ?_
    exact (keeps_subscribe (.union values)).imp fun _ h => List.Subset.trans h hvalues
  | bars members =>
    cases members with
    | nil => exact .pure (List.nil_subset _)
    | cons first rest =>
      refine (keeps_evaluate isDefined first).bind fun value hvalue => ?_
      refine (keeps_evaluateBars isDefined value rest).imp fun _ h => List.Subset.trans h ?_
      rw [uses, usesAll]
      exact List.append_subset.mpr ⟨List.subset_append_of_subset_left _ hvalue,
        List.subset_append_right _ _⟩
  | annotated base refinements =>
    refine (keeps_evaluate isDefined base).bind fun value hvalue => ?_
    refine (keeps_label refinements).bind fun labelled _ => ?_
    exact (keeps_subscribe (.annotated value labelled)).imp fun _ h => List.Subset.trans h hvalue

theorem keeps_evaluateAll (isDefined : String → Bool) (terms : List TypeTerm) :
    Keeps (TypeExpr.usesAll · ⊆ usesAll terms) (evaluateAll isDefined terms) := by
  cases terms with
  | nil => exact .pure (List.nil_subset _)
  | cons first rest =>
    refine (keeps_evaluate isDefined first).bind fun value hvalue => ?_
    refine (keeps_evaluateAll isDefined rest).bind fun values hvalues => .pure ?_
    rw [TypeExpr.usesAll, usesAll]
    exact List.append_subset.mpr ⟨List.subset_append_of_subset_left _ hvalue,
      List.subset_append_of_subset_right _ hvalues⟩

theorem keeps_evaluateBars (isDefined : String → Bool) (before : TypeExpr)
    (terms : List TypeTerm) :
    Keeps (·.uses ⊆ before.uses ++ usesAll terms) (evaluateBars isDefined before terms) := by
  cases terms with
  | nil => exact .pure (List.subset_append_left _ _)
  | cons next rest =>
    refine (keeps_evaluate isDefined next).bind fun value hvalue => ?_
    refine (keeps_join before value).bind fun joined hjoined => ?_
    refine (keeps_evaluateBars isDefined joined rest).imp fun _ h => List.Subset.trans h ?_
    have hboth : TypeExpr.usesAll [before, value] ⊆ before.uses ++ usesAll (next :: rest) := by
      refine TypeExpr.usesAll_subset fun expr hexpr => ?_
      rcases List.mem_cons.mp hexpr with rfl | hexpr
      · exact List.subset_append_left _ _
      · rw [List.mem_singleton.mp hexpr, usesAll]
        exact List.subset_append_of_subset_right _ (List.subset_append_of_subset_left _ hvalue)
    rw [usesAll]
    refine List.append_subset.mpr ⟨List.Subset.trans hjoined hboth, ?_⟩
    exact List.subset_append_of_subset_right _ (List.subset_append_right _ _)
end

end TypeTerm
end ShapeSchema
